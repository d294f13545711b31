import MetadataCatalog.Proofs.Markup.Reading
import Mathlib.Data.List.Infix
import Mathlib.Data.List.TakeWhile

/-!
# Tags and asides

How tags, comments, instructions and sections of character data are written, and how the reader goes
over them. Each of them is one event whatever stands around it: a tag is known by its name alone
(`after_startTag`, `after_emptyTag`, `after_endTag`), and nothing is said of what stands in an aside
(`after_aside`).
-/

namespace MetadataCatalog.Markup

variable {read : List Char} {names : List String} {events : List Event}

/-! ## §1 Names and attributes -/

/-- The characters that a name has none of. -/
def isNamePart (c : Char) : Bool :=
  !isTagBlank c && c ∉ ['<', '>', '/', '=', '"', '\'', '&']

/-- A name of an element or attribute. Not every such name is one that the standard allows. -/
structure IsName (name : String) : Prop where
  ne_empty : name.toList ≠ []
  parts : ∀ c ∈ name.toList, isNamePart c = true
  first : ∀ c ∈ name.toList.head?, c ≠ '!' ∧ c ≠ '?'

instance (name : String) : Decidable (IsName name) :=
  decidable_of_iff (name.toList ≠ [] ∧ name.toList.all isNamePart = true ∧
      name.toList.head?.all (fun c => c != '!' && c != '?') = true)
    ⟨fun ⟨ne_empty, parts, first⟩ => ⟨ne_empty, List.all_eq_true.mp parts,
        by simpa [Option.all_eq_true] using first⟩,
      fun h => ⟨h.ne_empty, List.all_eq_true.mpr h.parts,
        by simpa [Option.all_eq_true] using h.first⟩⟩

/-- Whether characters are blanks between the parts of a tag. -/
def areTagBlanks (cs : List Char) : Bool := cs.all isTagBlank

/-- What follows the name in a tag: attributes with blanks in front of them, and blanks. -/
inductive Attributes : List Char → Prop where
  /-- Nothing more than blanks. -/
  | blanks {bs : List Char} (hbs : areTagBlanks bs = true) : Attributes bs
  /-- A name, an equals sign and a value in quotes of one kind. -/
  | valued {bs left right value more : List Char} {name : String} {quote : Char}
      (hbs : areTagBlanks bs = true) (hne : bs ≠ []) (hname : IsName name)
      (hleft : areTagBlanks left = true) (hright : areTagBlanks right = true)
      (hquote : quote = '"' ∨ quote = '\'') (hvalue : quote ∉ value) (hmore : Attributes more) :
      Attributes (bs ++ name.toList ++ left ++ '=' :: right ++ quote :: value ++ quote :: more)

/-- A start tag. -/
def startTag (name : String) (attributes : List Char) : List Char :=
  '<' :: (name.toList ++ attributes ++ ['>'])

/-- The tag of an element without content. -/
def emptyTag (name : String) (attributes : List Char) : List Char :=
  '<' :: (name.toList ++ attributes ++ ['/', '>'])

/-- An end tag. -/
def endTag (name : String) (blanks : List Char) : List Char :=
  '<' :: '/' :: (name.toList ++ blanks ++ ['>'])

/-- Whether a character stands for itself in a tag, outside of the values. -/
def isTagPart (c : Char) : Bool :=
  c ∉ ['>', '"', '\'']

theorem isTagPart_of_isNamePart {c : Char} (h : isNamePart c = true) : isTagPart c = true := by
  simp_all [isNamePart, isTagPart]

theorem isTagPart_of_isTagBlank {c : Char} (h : isTagBlank c = true) : isTagPart c = true := by
  simp only [isTagBlank, Bool.or_eq_true, beq_iff_eq] at h
  rcases h with ((rfl | rfl) | rfl) | rfl <;> decide

theorem isTagPart_of_areTagBlanks {bs : List Char} (h : areTagBlanks bs = true) :
    ∀ c ∈ bs, isTagPart c = true :=
  fun c hc => isTagPart_of_isTagBlank (List.all_eq_true.mp h c hc)

theorem IsName.tagParts {name : String} (h : IsName name) :
    ∀ c ∈ name.toList, isTagPart c = true :=
  fun c hc => isTagPart_of_isNamePart (h.parts c hc)

theorem after_tagParts {cs : List Char} (h : ∀ c ∈ cs, isTagPart c = true) :
    State.after ⟨.tag read none, names, events⟩ cs =
      ⟨.tag (cs.reverse ++ read) none, names, events⟩ := by
  apply State.after_takenDown (.tag · none)
  intro c hc read
  have hc : c ≠ '>' ∧ c ≠ '"' ∧ c ≠ '\'' := by simpa [isTagPart] using h c hc
  simp [step, hc]

/-- Nothing ends a value but its quote. -/
theorem after_value {quote : Char} (hquote : quote = '"' ∨ quote = '\'') {value : List Char}
    (hvalue : quote ∉ value) :
    State.after ⟨.tag read none, names, events⟩ (quote :: value ++ [quote]) =
      ⟨.tag ((quote :: value ++ [quote]).reverse ++ read) none, names, events⟩ := by
  have hopen : step ⟨.tag read none, names, events⟩ quote =
      ⟨.tag (quote :: read) (some quote), names, events⟩ := by
    rcases hquote with rfl | rfl <;> simp [step]
  have hinside : State.after ⟨.tag (quote :: read) (some quote), names, events⟩ value =
      ⟨.tag (value.reverse ++ quote :: read) (some quote), names, events⟩ := by
    apply State.after_takenDown (.tag · (some quote))
    intro c hc read
    simp [step, ne_of_mem_of_not_mem hc hvalue]
  rw [List.cons_append, State.after_cons, hopen, State.after_append, hinside]
  simp [step]

theorem Attributes.after {attributes : List Char} (h : Attributes attributes) :
    State.after ⟨.tag read none, names, events⟩ attributes =
      ⟨.tag (attributes.reverse ++ read) none, names, events⟩ := by
  induction h generalizing read with
  | blanks hbs => exact after_tagParts (isTagPart_of_areTagBlanks hbs)
  | @valued bs left right value more name quote hbs _ hname hleft hright hquote hvalue _ ih =>
    have hfront : ∀ c ∈ bs ++ name.toList ++ left ++ '=' :: right, isTagPart c = true := by
      intro c hc
      simp only [List.mem_append, List.mem_cons] at hc
      rcases hc with ((hc | hc) | hc) | (rfl | hc)
      · exact isTagPart_of_areTagBlanks hbs c hc
      · exact hname.tagParts c hc
      · exact isTagPart_of_areTagBlanks hleft c hc
      · rfl
      · exact isTagPart_of_areTagBlanks hright c hc
    rw [show bs ++ name.toList ++ left ++ '=' :: right ++ quote :: value ++ quote :: more =
        (bs ++ name.toList ++ left ++ '=' :: right) ++ ((quote :: value ++ [quote]) ++ more) by simp,
      State.after_append, after_tagParts hfront, State.after_append, after_value hquote hvalue, ih]
    simp

theorem Attributes.last_ne_slash {attributes : List Char} (h : Attributes attributes) :
    attributes.getLast? ≠ some '/' := by
  induction h with
  | blanks hbs =>
    intro hlast
    exact absurd (List.all_eq_true.mp hbs '/' (List.mem_of_getLast? hlast)) (by decide)
  | @valued bs left right value more name quote _ _ _ _ _ hquote _ _ ih =>
    rw [List.getLast?_append]
    cases more with
    | nil => rcases hquote with rfl | rfl <;> simp
    | cons c more =>
      rw [List.getLast?_cons_cons]
      cases hlast : (c :: more).getLast? with
      | none => simp at hlast
      | some d => simpa [hlast] using ih

theorem Attributes.head_isTagBlank {attributes : List Char} (h : Attributes attributes) :
    ∀ c ∈ attributes.head?, isTagBlank c = true := by
  intro c hc
  cases h with
  | blanks hbs => exact List.all_eq_true.mp hbs c (List.mem_of_mem_head? hc)
  | @valued bs _ _ _ _ _ _ hbs hne =>
    obtain ⟨b, rest, rfl⟩ := List.exists_cons_of_ne_nil hne
    obtain rfl : b = c := by simpa using hc
    exact List.all_eq_true.mp hbs b List.mem_cons_self

/-! ## §2 Tags -/

section Tags

variable {name : String} (hname : IsName name)
include hname

/-- The name in a tag ends where the attributes begin. -/
theorem takeWhile_name {attributes : List Char} (h : ∀ c ∈ attributes.head?, isTagBlank c = true) :
    (name.toList ++ attributes).takeWhile (!isTagBlank ·) = name.toList := by
  have hparts : ∀ c ∈ name.toList, (!isTagBlank c) = true := by
    intro c hc
    have := hname.parts c hc
    simp only [isNamePart, Bool.and_eq_true] at this
    exact this.1
  rw [List.takeWhile_append_of_pos hparts]
  cases attributes with
  | nil => simp
  | cons c attributes => simp [h c rfl]

theorem name_last_ne_slash : name.toList.getLast? ≠ some '/' := fun hlast =>
  absurd (hname.parts '/' (List.mem_of_getLast? hlast)) (by decide)

theorem after_angle_name :
    State.after ⟨.angle, names, events⟩ name.toList =
      ⟨.tag name.toList.reverse none, names, events⟩ := by
  obtain ⟨c, rest, hchars⟩ := List.exists_cons_of_ne_nil hname.ne_empty
  have hc := hname.parts c (by simp [hchars])
  have hfirst := hname.first c (by simp [hchars])
  have hrest : ∀ d ∈ rest, isTagPart d = true :=
    fun d hd => hname.tagParts d (by simp [hchars, hd])
  have hstep : step ⟨.angle, names, events⟩ c = ⟨.tag [c] none, names, events⟩ := by
    simp [isNamePart] at hc
    simp [step, hfirst, hc]
  rw [hchars, State.after_cons, hstep, after_tagParts hrest]
  simp

/-- A start tag opens an element. -/
theorem after_startTag {attributes : List Char} (h : Attributes attributes) :
    (between read names events).after (startTag name attributes) =
      between [] (name :: names) (.opening name :: withText read events) := by
  have hfinish : ∀ s : State, finishTag s (attributes.reverse ++ name.toList.reverse) =
      { s with openNames := name :: s.openNames }.emit (.opening name) := by
    intro s
    have hslash : ∀ rest, attributes.reverse ++ name.toList.reverse ≠ '/' :: rest := by
      intro rest hrest
      have hlast : (name.toList ++ attributes).getLast? = some '/' := by
        rw [← List.reverse_append] at hrest
        rw [List.getLast?_eq_head?_reverse, hrest]
        rfl
      rw [List.getLast?_append] at hlast
      cases hattr : attributes.getLast? with
      | none => exact name_last_ne_slash hname (by simpa [hattr] using hlast)
      | some c => exact h.last_ne_slash (by simpa [hattr] using hlast)
    unfold finishTag
    split
    · next before heq => exact absurd heq (hslash before)
    · dsimp only
      rw [← List.reverse_append, List.reverse_reverse, takeWhile_name hname h.head_isTagBlank,
        String.ofList_toList]
  rw [startTag, State.after_cons, step_between_angle, List.append_assoc, State.after_append,
    after_angle_name hname, State.after_append, h.after]
  simp [step, hfinish, State.emit, between]

/-- A tag of an element without content opens nothing. -/
theorem after_emptyTag {attributes : List Char} (h : Attributes attributes) :
    (between read names events).after (emptyTag name attributes) =
      between [] names (.empty name :: withText read events) := by
  have hslash : State.after ⟨.tag (attributes.reverse ++ name.toList.reverse) none, names,
      withText read events⟩ ['/'] =
      ⟨.tag ('/' :: (attributes.reverse ++ name.toList.reverse)) none, names,
        withText read events⟩ := after_tagParts (by simp [isTagPart])
  have hnameOf : (attributes.reverse ++ name.toList.reverse).reverse.takeWhile (!isTagBlank ·) =
      name.toList := by
    rw [← List.reverse_append, List.reverse_reverse, takeWhile_name hname h.head_isTagBlank]
  rw [emptyTag, State.after_cons, step_between_angle, List.append_assoc, State.after_append,
    after_angle_name hname, State.after_append, h.after,
    show ['/', '>'] = ['/'] ++ ['>'] from rfl, State.after_append, hslash]
  simp only [State.after_cons, State.after_nil, step, if_true, finishTag, State.emit, between]
  rw [hnameOf, String.ofList_toList]

/-- An end tag closes the element that was opened last. -/
theorem after_endTag {blanks : List Char} (h : areTagBlanks blanks = true) :
    (between read (name :: names) events).after (endTag name blanks) =
      between [] names (.closing name :: withText read events) := by
  have hbracket : '>' ∉ name.toList ++ blanks := by
    intro hmem
    rcases List.mem_append.mp hmem with hmem | hmem
    · exact absurd (hname.parts '>' hmem) (by decide)
    · exact absurd (List.all_eq_true.mp h '>' hmem) (by decide)
  have hinside : State.after ⟨.endTag [], name :: names, withText read events⟩
      (name.toList ++ blanks) =
      ⟨.endTag ((name.toList ++ blanks).reverse ++ []), name :: names, withText read events⟩ := by
    apply State.after_takenDown .endTag
    intro c hc read
    simp [step, ne_of_mem_of_not_mem hc hbracket]
  -- the blanks behind the name do not count, and the last character of the name is none
  have htrim : (name.toList ++ blanks).reverse.dropWhile isTagBlank = name.toList.reverse := by
    rw [List.reverse_append, List.dropWhile_append_of_pos
      (fun c hc => List.all_eq_true.mp h c (List.mem_reverse.mp hc)), List.dropWhile_eq_self_iff]
    intro hlen
    have := hname.parts _ (List.mem_reverse.mp (List.getElem_mem hlen))
    simp only [isNamePart, Bool.and_eq_true] at this
    simpa using this.1
  have hfinish : ∀ s : State, s.openNames = name :: names →
      finishEndTag s (name.toList ++ blanks).reverse =
        { s with openNames := names }.emit (.closing name) := by
    intro s hs
    unfold finishEndTag
    dsimp only
    rw [htrim, if_neg (by simpa using hname.ne_empty), List.reverse_reverse, String.ofList_toList, hs]
    simp
  rw [endTag, State.after_cons, step_between_angle, State.after_cons,
    show step ⟨.angle, name :: names, withText read events⟩ '/' =
      ⟨.endTag [], name :: names, withText read events⟩ by simp [step],
    State.after_append, hinside, List.append_nil]
  simp only [State.after_cons, State.after_nil, step, if_true]
  rw [hfinish _ rfl]
  rfl

end Tags

/-! ## §3 Asides -/

/-- Markup that is passed over. -/
inductive IsAside : List Char → Prop where
  /-- A comment, in which no two hyphens stand together and which does not end with one. -/
  | comment {content : List Char} (h : ¬ ['-', '-'] <:+: content ++ ['-']) :
      IsAside ("<!--".toList ++ content ++ "-->".toList)
  /-- An instruction; the first closing bracket is taken for its end. -/
  | instruction {content : List Char} (hne : content ≠ []) (h : '>' ∉ content) :
      IsAside ("<?".toList ++ content ++ "?>".toList)
  /-- A section of character data. -/
  | characterData {content : List Char} (h : ¬ [']', ']', '>'] <:+: content) :
      IsAside ("<![CDATA[".toList ++ content ++ "]]>".toList)

theorem IsAside.begins {cs : List Char} (h : IsAside cs) : ∃ rest, cs = '<' :: rest := by
  cases h <;> exact ⟨_, rfl⟩

/-- A declaration goes on as long as no closing bracket ends it. -/
theorem after_declaration {cs : List Char} {first : Char} :
    ∀ {read : List Char}, (∀ front back, cs = front ++ '>' :: back → ∀ s,
        finishDeclaration? s (front.reverse ++ first :: read) = none) →
      State.after ⟨.declaration (first :: read), names, events⟩ cs =
        ⟨.declaration (cs.reverse ++ first :: read), names, events⟩ := by
  induction cs generalizing first with
  | nil => intro read _; rfl
  | cons c cs ih =>
    intro read h
    have hstep : step ⟨.declaration (first :: read), names, events⟩ c =
        ⟨.declaration (c :: first :: read), names, events⟩ := by
      by_cases hc : c = '>'
      · subst hc
        have hnone := h [] cs rfl ⟨.declaration (first :: read), names, events⟩
        simp only [List.reverse_nil, List.nil_append] at hnone
        simp [step, hnone]
      · simp [step, hc]
    rw [State.after_cons, hstep, ih]
    · simp
    · intro front back hcs s
      have := h (c :: front) back (by simp [hcs]) s
      simpa using this

/-- What has been read in reverse begins with the last characters. -/
theorem exists_of_take_reverse {cs : List Char} (ending : List Char)
    (h : cs.reverse.take ending.length = ending.reverse) : ∃ front, cs = front ++ ending := by
  refine ⟨(cs.reverse.drop ending.length).reverse, ?_⟩
  rw [← List.reverse_inj, List.reverse_append, List.reverse_reverse, ← h,
    List.take_append_drop]

/-- A declaration that begins with a hyphen ends behind two hyphens, other than the first two. -/
theorem finishDeclaration?_hyphen (s : State) (front : List Char) :
    finishDeclaration? s ('-' :: front).reverse =
      if ('-' :: front).reverse.take 2 = ['-', '-'] ∧ 4 ≤ ('-' :: front).length then
        some (if ('-' :: front).take 2 = ['-', '-'] then s.emit .aside else s.fail)
      else none := by
  simp only [finishDeclaration?, List.reverse_reverse, List.length_reverse]

/-- One that begins with a bracket ends behind two brackets. -/
theorem finishDeclaration?_bracket (s : State) (front : List Char) :
    finishDeclaration? s ('[' :: front).reverse =
      if ('[' :: front).reverse.take 2 = [']', ']'] then
        some (if beginsWith "[CDATA[".toList ('[' :: front) then s.emit .aside else s.fail)
      else none := by
  simp only [finishDeclaration?, List.reverse_reverse]

/-- A declaration is passed over if no closing bracket ends it before the last one. -/
theorem after_wholeDeclaration {first : Char} {cs : List Char}
    (hfirst : startsDeclaration first = true)
    (hgoes : ∀ front back, cs = front ++ '>' :: back → ∀ s,
      finishDeclaration? s (first :: front).reverse = none)
    (hends : ∀ s, finishDeclaration? s (first :: cs).reverse = some (s.emit .aside)) :
    (between read names events).after ('<' :: '!' :: first :: (cs ++ ['>'])) =
      between [] names (.aside :: withText read events) := by
  have hbegin : State.after ⟨.angle, names, withText read events⟩ ['!', first] =
      ⟨.declaration [first], names, withText read events⟩ := by
    simp [step, hfirst]
  have hread : State.after ⟨.declaration [first], names, withText read events⟩ cs =
      ⟨.declaration (cs.reverse ++ [first]), names, withText read events⟩ :=
    after_declaration fun front back heq s => by simpa using hgoes front back heq s
  rw [State.after_cons, step_between_angle,
    show '!' :: first :: (cs ++ ['>']) = ['!', first] ++ (cs ++ ['>']) from rfl,
    State.after_append, hbegin, State.after_append, hread, ← List.reverse_cons]
  have hnil : (first :: cs).reverse ≠ [] := by simp
  obtain ⟨c, rest, hrev⟩ := List.exists_cons_of_ne_nil hnil
  have hends := hends ⟨.declaration (first :: cs).reverse, names, withText read events⟩
  rw [hrev] at hends ⊢
  simp only [State.after_cons, State.after_nil, step, hends]
  rfl

theorem after_comment {content : List Char} (h : ¬ ['-', '-'] <:+: content ++ ['-']) :
    (between read names events).after ("<!--".toList ++ content ++ "-->".toList) =
      between [] names (.aside :: withText read events) := by
  rw [show "<!--".toList ++ content ++ "-->".toList =
    '<' :: '!' :: '-' :: ('-' :: content ++ ['-', '-'] ++ ['>']) by simp]
  apply after_wholeDeclaration rfl
  · intro front back heq s
    rw [finishDeclaration?_hyphen, if_neg]
    rintro ⟨htake, hlen⟩
    -- two hyphens would stand before the bracket, behind the first two
    obtain ⟨tail, htail⟩ := exists_of_take_reverse ['-', '-'] htake
    match tail with
    | [] | [_] => simp [htail] at hlen
    | c :: d :: tail =>
      obtain ⟨rfl, rfl⟩ : '-' = c ∧ front = d :: tail ++ ['-', '-'] := by simpa using htail
      have hcontent : content ++ ['-'] ++ ['-'] = tail ++ ['-', '-'] ++ '>' :: back := by
        simpa using (List.cons.inj heq).2
      have hback : content ++ ['-'] = tail ++ ['-', '-'] ++ ('>' :: back).dropLast := by
        rw [← List.dropLast_append_of_ne_nil (by simp), ← hcontent, List.dropLast_concat]
      exact h ⟨tail, ('>' :: back).dropLast, hback.symm⟩
  · intro s
    rw [finishDeclaration?_hyphen, if_pos]
    · simp
    · simp

theorem after_characterData {content : List Char} (h : ¬ [']', ']', '>'] <:+: content) :
    (between read names events).after ("<![CDATA[".toList ++ content ++ "]]>".toList) =
      between [] names (.aside :: withText read events) := by
  rw [show "<![CDATA[".toList ++ content ++ "]]>".toList =
    '<' :: '!' :: '[' :: ("CDATA[".toList ++ content ++ [']', ']'] ++ ['>']) by simp]
  apply after_wholeDeclaration rfl
  · intro front back heq s
    rw [finishDeclaration?_bracket, if_neg]
    intro htake
    -- two brackets would stand before the closing one, and only in the content can that be
    obtain ⟨tail, htail⟩ := exists_of_take_reverse [']', ']'] htake
    have hall : "[CDATA[".toList ++ (content ++ [']', ']']) = tail ++ ([']', ']', '>'] ++ back) := by
      have := congrArg ('[' :: ·) heq
      simp only [← List.cons_append, htail] at this
      simpa using this
    obtain ⟨inside, hinside⟩ :
        ∃ inside, content ++ [']', ']'] = inside ++ [']', ']', '>'] ++ back := by
      rcases List.append_eq_append_iff.mp hall with ⟨inside, -, hrest⟩ | ⟨beyond, hbeyond, hrest⟩
      · exact ⟨inside, by rw [hrest, List.append_assoc]⟩
      · cases beyond with
        | nil => exact ⟨[], by simpa using hrest.symm⟩
        | cons c beyond =>
          obtain rfl : ']' = c := (List.cons.inj hrest).1
          have hmem : ']' ∈ "[CDATA[".toList := by rw [hbeyond]; simp
          exact absurd hmem (by decide)
    rcases List.append_eq_append_iff.mp hinside with ⟨more, hmore, hback⟩ | ⟨more, hmore, -⟩
    · cases more using List.reverseRecOn with
      | nil => exact h ⟨inside, [], by simpa using hmore⟩
      | append_singleton more c =>
        obtain rfl : '>' = c := by
          have := congrArg List.getLast? hmore
          simpa using this
        have hmem : '>' ∈ [']', ']'] := by rw [hback]; simp
        exact absurd hmem (by decide)
    · exact h ⟨inside, more, hmore.symm⟩
  · intro s
    rw [finishDeclaration?_bracket, if_pos]
    · simp [beginsWith]
    · simp

theorem after_instruction {content : List Char} (hne : content ≠ []) (h : '>' ∉ content) :
    (between read names events).after ("<?".toList ++ content ++ "?>".toList) =
      between [] names (.aside :: withText read events) := by
  have hbracket : '>' ∉ content ++ ['?'] := by simpa using h
  have hinside : State.after ⟨.instruction [], names, withText read events⟩ (content ++ ['?']) =
      ⟨.instruction ((content ++ ['?']).reverse ++ []), names, withText read events⟩ := by
    apply State.after_takenDown .instruction
    intro c hc read
    simp [step, ne_of_mem_of_not_mem hc hbracket]
  obtain ⟨c, rest, hrev⟩ := List.exists_cons_of_ne_nil (List.reverse_ne_nil_iff.mpr hne)
  rw [show "<?".toList ++ content ++ "?>".toList = '<' :: '?' :: (content ++ ['?'] ++ ['>']) by simp,
    State.after_cons, step_between_angle, State.after_cons,
    show step ⟨.angle, names, withText read events⟩ '?' =
      ⟨.instruction [], names, withText read events⟩ by simp [step],
    State.after_append, hinside, List.reverse_append, hrev]
  rfl

/-- An aside is one event. -/
theorem after_aside {cs : List Char} (h : IsAside cs) :
    (between read names events).after cs = between [] names (.aside :: withText read events) := by
  cases h with
  | comment h => exact after_comment h
  | instruction hne h => exact after_instruction hne h
  | characterData h => exact after_characterData h

end MetadataCatalog.Markup
