import MetadataCatalog.Proofs.Catalog.Quoting
import MetadataCatalog.Proofs.Text.Trimming
import Mathlib.Data.List.TakeWhile

/-!
# Reading expressions back

A search does not see the expression of a query but its written form, and evaluates what that reads
as. Both are the same as long as no NUL cuts the written form off: what is read back from a written
expression is the expression (`read?_text`), and so it is for every query without NUL
(`read?_of_ofQuery`).
-/

namespace MetadataCatalog

namespace Expression

/-! ## §1 Texts in quotes -/

theorem closeQuote?_of_closes {cs s rest : List Char} (h : Closes cs s rest) :
    closeQuote? cs = some (s, rest) := by
  induction h with
  | @ends rest hrest =>
    cases rest with
    | nil => simp [closeQuote?]
    | cons c rest =>
      have hc : c ≠ '"' := fun heq => hrest (by rw [heq, List.head?_cons])
      have hsingle : ∀ cs', '"' = '"' → c :: rest = '"' :: cs' → False := by
        intro cs' _ heq
        exact hc (List.cons.inj heq).1
      rw [closeQuote?.eq_3 _ _ hsingle, if_pos rfl]
  | quote _ ih => rw [closeQuote?, ih, Option.map_some]
  | other hc _ ih =>
    rw [closeQuote?.eq_3 _ _ (fun _ heq _ => hc heq), if_neg hc, ih, Option.map_some]

theorem quoted?_quoted (s : String) {rest : List Char} (hrest : rest.head? ≠ some '"') :
    quoted? (quoted s ++ rest) = some (s, rest) := by
  have hclose := closeQuote?_of_closes (closes_doubled s.toList hrest)
  have hcons : quoted s ++ rest = '"' :: (doubled s.toList ++ '"' :: rest) := by
    simp [quoted]
  rw [hcons, quoted?, hclose, Option.map_some]
  simp

/-- Nothing is read where the characters before a text are missing. -/
theorem each?_of_not_isPrefixOf {before cs : List Char} (h : before.isPrefixOf cs = false) :
    each? before cs = ([], cs) := by
  rw [each?]
  split
  · rfl
  · simp [h]

theorem each?_of_quoted? {before cs rest : List Char} {s : String}
    (h : quoted? (cs.drop before.length) = some (s, rest)) (hbefore : before.isPrefixOf cs = true) :
    each? before cs = (s :: (each? before rest).1, (each? before rest).2) := by
  rw [each?]
  split
  · next hnone =>
    rw [hnone] at h
    cases h
  · next s' rest' hsome =>
    rw [hsome] at h
    cases h
    rw [if_pos hbefore]

/-- Texts are read up to where the characters before a text are missing. -/
theorem each?_each {before rest : List Char} (hbefore : before.head? = some ' ')
    (hrest : rest.head? ≠ some '"') (hstop : before.isPrefixOf rest = false)
    (texts : List String) : each? before (each before texts ++ rest) = (texts, rest) := by
  induction texts with
  | nil => exact each?_of_not_isPrefixOf hstop
  | cons s texts ih =>
    have hread : quoted? ((each before (s :: texts) ++ rest).drop before.length) =
        some (s, each before texts ++ rest) := by
      rw [each_cons, List.append_assoc, List.append_assoc, List.drop_left]
      exact quoted?_quoted s (head?_each_append hbefore hrest texts)
    have hprefix : before.isPrefixOf (each before (s :: texts) ++ rest) = true := by
      rw [each_cons, List.append_assoc, List.append_assoc, List.isPrefixOf_iff_prefix]
      exact List.prefix_append _ _
    rw [each?_of_quoted? hread hprefix, ih]

/-! ## §2 Written expressions -/

/-- The required texts are read up to the closing bracket. One text alone counts as joined by
`OR`. -/
theorem required?_quoted (j : Junction) (first : String) (more : List String) (rest : List Char) :
    required? (quoted first ++ (each (Junction.separator j) more ++ ')' :: rest)) =
      some (if more = [] then .any else j, first :: more, ')' :: rest) := by
  have hclosing : (')' :: rest).head? ≠ some '"' := by simp
  have hhead : (Junction.separator j).head? = some ' ' := by cases j <;> rfl
  have hstop : ∀ j', (Junction.separator j').isPrefixOf (')' :: rest) = false := by
    intro j'
    cases j' <;> rfl
  have hmore := each?_each hhead hclosing (hstop j) more
  unfold required?
  rw [quoted?_quoted first (head?_each_append hhead hclosing more)]
  simp only [Option.bind_eq_bind, Option.bind_some]
  cases more with
  | nil =>
    rw [each_nil, List.nil_append, each?_of_not_isPrefixOf (hstop .any),
      each?_of_not_isPrefixOf (hstop .all)]
    rfl
  | cons s more =>
    cases j with
    | any =>
      rw [hmore]
      rfl
    | all =>
      -- the first try, for texts joined by `OR`, finds none
      have hany : each? (Junction.separator .any)
          (each (Junction.separator .all) (s :: more) ++ ')' :: rest) =
          ([], each (Junction.separator .all) (s :: more) ++ ')' :: rest) :=
        each?_of_not_isPrefixOf rfl
      rw [hany, hmore]
      rfl

theorem ofChars?_chars {j : Junction} {first : String} {more excluded : List String}
    (hnul : Char.ofNat 0 ∉ chars ⟨j, first :: more, excluded⟩)
    (hjunction : more = [] → j = .any) :
    ofChars? (chars ⟨j, first :: more, excluded⟩) = some ⟨j, first :: more, excluded⟩ := by
  have hwhole : (chars ⟨j, first :: more, excluded⟩).takeWhile (· ≠ Char.ofNat 0) =
      chars ⟨j, first :: more, excluded⟩ := by
    rw [List.takeWhile_eq_self_iff]
    intro c hc
    exact decide_eq_true fun heq => hnul (heq ▸ hc)
  have hexcluded : each? exclusion (each exclusion excluded ++ []) = (excluded, []) :=
    each?_each rfl (by simp) rfl excluded
  rw [List.append_nil] at hexcluded
  have hj : (if more = [] then Junction.any else j) = j := by
    split
    · next h => exact (hjunction h).symm
    · rfl
  unfold ofChars?
  rw [hwhole, chars_cons]
  simp only [required?_quoted, hj, Option.bind_eq_bind, Option.bind_some, hexcluded]

/-- All texts of an expression. -/
def texts (e : Expression) : List String :=
  e.required ++ e.excluded

theorem mem_doubled {c : Char} {cs : List Char} (h : c ∈ doubled cs) : c ∈ cs := by
  simp only [doubled, List.mem_flatMap] at h
  obtain ⟨d, hd, hc⟩ := h
  split at hc <;> simp_all

theorem nul_not_mem_quoted {s : String} (h : Char.ofNat 0 ∉ s.toList) :
    Char.ofNat 0 ∉ quoted s := by
  intro hmem
  simp only [quoted, List.cons_append, List.mem_cons, List.mem_append, List.not_mem_nil,
    or_false] at hmem
  rcases hmem with heq | hmem | heq
  · exact absurd heq (by decide)
  · exact h (mem_doubled hmem)
  · exact absurd heq (by decide)

/-- A NUL in the written form would be one of a text. -/
theorem nul_not_mem_each {before : List Char} (hbefore : Char.ofNat 0 ∉ before)
    {texts : List String} (h : ∀ s ∈ texts, Char.ofNat 0 ∉ s.toList) :
    Char.ofNat 0 ∉ each before texts := by
  induction texts with
  | nil => simp [each_nil]
  | cons s texts ih =>
    have hs := h s List.mem_cons_self
    have hrest := ih fun t ht => h t (List.mem_cons_of_mem _ ht)
    rw [each_cons, List.mem_append, List.mem_append]
    exact fun hmem => hmem.elim (fun h => h.elim hbefore (nul_not_mem_quoted hs)) hrest

theorem nul_not_mem_chars {e : Expression} (h : ∀ s ∈ e.texts, Char.ofNat 0 ∉ s.toList) :
    Char.ofNat 0 ∉ e.chars := by
  have hseparator : Char.ofNat 0 ∉ Junction.separator e.junction := by
    cases e.junction <;> decide
  have hrequired := nul_not_mem_each hseparator fun s hs => h s (List.mem_append_left _ hs)
  have hexcluded : Char.ofNat 0 ∉ each exclusion e.excluded :=
    nul_not_mem_each (by decide) fun s hs => h s (List.mem_append_right _ hs)
  intro hmem
  simp only [chars, List.cons_append, List.mem_cons, List.mem_append, List.not_mem_nil,
    or_false] at hmem
  rcases hmem with heq | (hmem | heq) | hmem
  · exact absurd heq (by decide)
  · exact hrequired (List.mem_of_mem_drop hmem)
  · exact absurd heq (by decide)
  · exact hexcluded hmem

/-- Without NUL, what is read back from a written expression is the expression. -/
theorem read?_text {e : Expression} (hne : e.required ≠ [])
    (hjunction : e.required.length < 2 → e.junction = .any)
    (hnul : ∀ s ∈ e.texts, Char.ofNat 0 ∉ s.toList) : read? e.text = some e := by
  obtain ⟨j, required, excluded⟩ := e
  obtain ⟨first, more, rfl⟩ := List.exists_cons_of_ne_nil hne
  rw [read?, text, String.toList_ofList]
  refine ofChars?_chars (nul_not_mem_chars hnul) fun hmore => hjunction ?_
  simp [hmore]

end Expression

/-! ## §3 Queries without NUL -/

namespace Terms

/-- All terms. -/
def all (terms : Terms) : List String :=
  terms.words ++ terms.phrases ++ terms.excluded

theorem mem_all_withPhrase {between : List Char} {terms : Terms} {s : String}
    (h : s ∈ (withPhrase between terms).all) :
    s ∈ terms.all ∨ s.toList = Text.trimChars between := by
  simp only [withPhrase] at h
  split at h
  · exact Or.inl h
  · simp only [all, List.mem_append, List.mem_cons] at h ⊢
    rcases h with (h | rfl | h) | h
    · exact Or.inl (Or.inl (Or.inl h))
    · exact Or.inr String.toList_ofList
    · exact Or.inl (Or.inl (Or.inr h))
    · exact Or.inl (Or.inr h)

theorem mem_all_withWord {word : List Char} {terms : Terms} {s : String}
    (h : s ∈ (withWord word terms).all) : s ∈ terms.all ∨ ∀ c ∈ s.toList, c ∈ word := by
  unfold withWord at h
  split at h
  · exact Or.inl h
  · next rest _ =>
    simp only [all, List.mem_append, List.mem_cons] at h ⊢
    rcases h with h | rfl | h
    · exact Or.inl (Or.inl h)
    · right
      intro c hc
      rw [String.toList_ofList] at hc
      exact Or.inr hc
    · exact Or.inl (Or.inr h)
  · simp only [all, List.mem_append, List.mem_cons] at h ⊢
    rcases h with ((rfl | h) | h) | h
    · right
      intro c hc
      rwa [String.toList_ofList] at hc
    · exact Or.inl (Or.inl (Or.inl h))
    · exact Or.inl (Or.inl (Or.inr h))
    · exact Or.inl (Or.inr h)

/-- The terms of a query have no characters of their own. -/
theorem mem_of_mem_ofChars {cs : List Char} {s : String} (hs : s ∈ (ofChars cs).all) {c : Char}
    (hc : c ∈ s.toList) : c ∈ cs := by
  fun_induction ofChars cs with
  | case1 => simp [all, empty] at hs
  | case2 b cs _ ih => exact List.mem_cons_of_mem _ (ih hs)
  | case3 cs _ ih =>
    rcases mem_all_withPhrase hs with hs | hs
    · have hrest := List.mem_of_mem_drop (ih hs)
      exact List.mem_cons_of_mem _ ((List.dropWhile_sublist _).mem hrest)
    · rw [hs] at hc
      have htaken := (List.takeWhile_sublist _).mem ((Text.trimChars_infix _).mem hc)
      exact List.mem_cons_of_mem _ htaken
  | case4 b cs _ _ ih =>
    rcases mem_all_withWord hs with hs | hs
    · have hrest := List.mem_of_mem_drop (ih hs)
      exact List.mem_cons_of_mem _ ((List.dropWhile_sublist _).mem hrest)
    · rcases List.mem_cons.mp (hs c hc) with rfl | hword
      · exact List.mem_cons_self
      · exact List.mem_cons_of_mem _ ((List.takeWhile_sublist _).mem hword)

/-- A query without NUL has no terms with NUL. -/
theorem nul_not_mem_of_mem_all {query : String} (h : Char.ofNat 0 ∉ query.toList) {s : String}
    (hs : s ∈ (ofText (Text.trim query)).all) : Char.ofNat 0 ∉ s.toList := by
  intro hmem
  have htrim := mem_of_mem_ofChars hs hmem
  rw [Text.trim, String.toList_ofList] at htrim
  exact h ((Text.trimChars_infix _).mem htrim)

end Terms

namespace Expression

/-- One text alone counts as joined by `OR`. -/
theorem junction_ofTerms_of_short {terms : Terms} (h : (ofTerms terms).required.length < 2) :
    (ofTerms terms).junction = .any := by
  rw [required_ofTerms] at h
  unfold ofTerms
  by_cases hphrases : terms.phrases = []
  · simp [hphrases]
  · rw [if_neg hphrases] at h
    have hshort : ¬ 2 ≤ terms.phrases.length := by omega
    simp [hphrases, hshort]

theorem mem_all_of_mem_texts {terms : Terms} {s : String} (h : s ∈ (ofTerms terms).texts) :
    s ∈ terms.all := by
  rw [texts, required_ofTerms, excluded_ofTerms] at h
  simp only [Terms.all, List.mem_append]
  rcases List.mem_append.mp h with h | h
  · split at h
    · exact Or.inl (Or.inl h)
    · exact Or.inl (Or.inr h)
  · exact Or.inr h

/-- **What is evaluated for a query without NUL is its expression.** -/
theorem read?_of_ofQuery {query : String} {e : Expression} (h : ofQuery query = .ok e)
    (hnul : Char.ofNat 0 ∉ query.toList) :
    e = ofTerms (Terms.ofText (Text.trim query)) ∧ read? e.text = some e := by
  obtain ⟨hne, rfl⟩ := ofQuery_eq_ok_iff.mp h
  refine ⟨rfl, read?_text hne junction_ofTerms_of_short fun s hs => ?_⟩
  exact Terms.nul_not_mem_of_mem_all hnul (mem_all_of_mem_texts hs)

/-! ## §4 Queries with NUL -/

/-- What stands before the first NUL. -/
def beforeNul (cs : List Char) : List Char :=
  cs.takeWhile (· ≠ Char.ofNat 0)

theorem beforeNul_append {cs : List Char} (h : Char.ofNat 0 ∉ cs) (rest : List Char) :
    beforeNul (cs ++ rest) = cs ++ beforeNul rest := by
  apply List.takeWhile_append_of_pos
  exact fun c hc => decide_eq_true fun heq => h (heq ▸ hc)

/-- A text with a NUL is cut off before its closing quote, and so it does not read. -/
theorem quoted?_beforeNul {s : String} (h : Char.ofNat 0 ∈ s.toList) (rest : List Char) :
    quoted? (beforeNul (quoted s ++ rest)) = none := by
  obtain ⟨front, back, hsplit, hfront⟩ := List.eq_append_cons_of_mem h
  have hclose : ∀ cs, closeQuote? (doubled cs) = none := by
    intro cs
    induction cs with
    | nil => rfl
    | cons c cs ih =>
      rw [doubled_cons]
      by_cases hc : c = '"'
      · rw [if_pos hc, List.cons_append, List.cons_append, List.nil_append, closeQuote?, ih,
          Option.map_none]
      · rw [if_neg hc, List.singleton_append, closeQuote?.eq_3 _ _ (fun _ heq _ => hc heq),
          if_neg hc, ih, Option.map_none]
  have hopen : Char.ofNat 0 ∉ '"' :: doubled front := by
    intro hmem
    rcases List.mem_cons.mp hmem with heq | hmem
    · exact absurd heq (by decide)
    · exact hfront (mem_doubled hmem)
  -- what is left are the opening quote and the characters before the NUL
  have hcut : beforeNul (quoted s ++ rest) = '"' :: doubled front := by
    have hwhole : quoted s ++ rest =
        ('"' :: doubled front) ++ Char.ofNat 0 :: (doubled back ++ '"' :: rest) := by
      rw [quoted, hsplit]
      simp [doubled]
    rw [hwhole, beforeNul_append hopen, beforeNul, List.takeWhile_cons_of_neg (by simp),
      List.append_nil]
  rw [hcut, quoted?, hclose, Option.map_none]

/-- Texts of which one has a NUL are read up to that one, and its space is left in front. -/
theorem each?_beforeNul {before : List Char} (hspace : before.head? = some ' ')
    (hbefore : Char.ofNat 0 ∉ before) {texts : List String}
    (h : ∃ s ∈ texts, Char.ofNat 0 ∈ s.toList) (rest : List Char) :
    (beforeNul (each before texts ++ rest)).head? = some ' ' ∧
      (each? before (beforeNul (each before texts ++ rest))).2.head? = some ' ' := by
  induction texts with
  | nil =>
    obtain ⟨s, hs, -⟩ := h
    cases hs
  | cons s texts ih =>
    have hwhole : beforeNul (each before (s :: texts) ++ rest) =
        before ++ beforeNul (quoted s ++ (each before texts ++ rest)) := by
      rw [each_cons, List.append_assoc, List.append_assoc, beforeNul_append hbefore]
    have hhead : ∀ cs : List Char, (before ++ cs).head? = some ' ' := by
      intro cs
      rw [List.head?_append, hspace, Option.some_or]
    have hbegins : ∀ cs, before.isPrefixOf (before ++ cs) = true := by
      intro cs
      rw [List.isPrefixOf_iff_prefix]
      exact List.prefix_append before cs
    rw [hwhole]
    refine ⟨hhead _, ?_⟩
    by_cases hnul : Char.ofNat 0 ∈ s.toList
    · -- the text is cut off, so nothing is read
      have hnone : quoted? ((before ++ beforeNul (quoted s ++ (each before texts ++ rest))).drop
          before.length) = none := by
        rw [List.drop_left]
        exact quoted?_beforeNul hnul _
      rw [each?]
      split
      · exact hhead _
      · next hsome =>
        rw [hnone] at hsome
        cases hsome
    · -- the text is read, and the one with the NUL comes later
      obtain ⟨t, ht, hlater⟩ := h
      have hmore : ∃ t ∈ texts, Char.ofNat 0 ∈ t.toList := by
        rcases List.mem_cons.mp ht with rfl | ht
        · exact absurd hlater hnul
        · exact ⟨t, ht, hlater⟩
      obtain ⟨hfront, hrest⟩ := ih hmore
      have hread : quoted? ((before ++ beforeNul (quoted s ++ (each before texts ++ rest))).drop
          before.length) = some (s, beforeNul (each before texts ++ rest)) := by
        rw [List.drop_left, beforeNul_append (nul_not_mem_quoted hnul)]
        apply quoted?_quoted
        rw [hfront]
        decide
      rw [each?_of_quoted? hread (hbegins _)]
      exact hrest

/-- Required texts of which one has a NUL do not read up to the closing bracket. -/
theorem required?_beforeNul {j : Junction} {first : String} {more : List String}
    (h : ∃ s ∈ first :: more, Char.ofNat 0 ∈ s.toList) (rest : List Char)
    {result : Junction × List String × List Char}
    (hresult : required? (beforeNul (quoted first ++ (each (Junction.separator j) more ++ rest))) =
      some result) : result.2.2.head? = some ' ' := by
  unfold required? at hresult
  by_cases hnul : Char.ofNat 0 ∈ first.toList
  · rw [quoted?_beforeNul hnul] at hresult
    cases hresult
  · obtain ⟨t, ht, hlater⟩ := h
    have hmore : ∃ t ∈ more, Char.ofNat 0 ∈ t.toList := by
      rcases List.mem_cons.mp ht with rfl | ht
      · exact absurd hlater hnul
      · exact ⟨t, ht, hlater⟩
    have hspace : (Junction.separator j).head? = some ' ' := by cases j <;> rfl
    have hseparator : Char.ofNat 0 ∉ Junction.separator j := by cases j <;> decide
    obtain ⟨hfront, hend⟩ := each?_beforeNul hspace hseparator hmore rest
    -- words of the other kind do not stand between the texts
    have hother : ∀ j', j' ≠ j →
        each? (Junction.separator j') (beforeNul (each (Junction.separator j) more ++ rest)) =
          ([], beforeNul (each (Junction.separator j) more ++ rest)) := by
      intro j' hne
      obtain ⟨s, more, rfl⟩ := List.exists_cons_of_ne_nil (l := more)
        (fun hnil => by obtain ⟨_, hmem, _⟩ := hmore; simp [hnil] at hmem)
      apply each?_of_not_isPrefixOf
      rw [each_cons, List.append_assoc, List.append_assoc, beforeNul_append hseparator]
      cases j' <;> cases j <;> first | rfl | exact absurd rfl hne
    have hfirst : quoted? (beforeNul (quoted first ++ (each (Junction.separator j) more ++ rest))) =
        some (first, beforeNul (each (Junction.separator j) more ++ rest)) := by
      rw [beforeNul_append (nul_not_mem_quoted hnul)]
      apply quoted?_quoted
      rw [hfront]
      decide
    rw [hfirst] at hresult
    simp only [Option.bind_eq_bind, Option.bind_some] at hresult
    cases j with
    | any =>
      split at hresult
      · cases hresult
        exact hend
      · rw [hother .all (by decide)] at hresult
        cases hresult
        exact hfront
    | all =>
      rw [hother .any (by decide)] at hresult
      simp only [ne_eq, not_true_eq_false, if_false] at hresult
      cases hresult
      exact hend

/-- **A NUL in a text keeps the written form from being read.** -/
theorem read?_text_of_nul {e : Expression} (hne : e.required ≠ [])
    (h : ∃ s ∈ e.texts, Char.ofNat 0 ∈ s.toList) : read? e.text = none := by
  obtain ⟨j, required, excluded⟩ := e
  obtain ⟨first, more, rfl⟩ := List.exists_cons_of_ne_nil hne
  have hopening : Char.ofNat 0 ∉ ['('] := by decide
  have hcut : (chars ⟨j, first :: more, excluded⟩).takeWhile (· ≠ Char.ofNat 0) =
      '(' :: beforeNul (quoted first ++
        (each (Junction.separator j) more ++ ')' :: each exclusion excluded)) := by
    rw [chars_cons]
    exact beforeNul_append hopening _
  rw [read?, text, String.toList_ofList, ofChars?, hcut]
  by_cases hrequired : ∃ s ∈ first :: more, Char.ofNat 0 ∈ s.toList
  · -- a space stands where the closing bracket should be
    cases hread : required? (beforeNul (quoted first ++
        (each (Junction.separator j) more ++ ')' :: each exclusion excluded))) with
    | none => simp only [hread, Option.bind_eq_bind, Option.bind_none]
    | some result =>
      obtain ⟨junction, texts, rest⟩ := result
      have hspace := required?_beforeNul hrequired _ hread
      simp only [hread, Option.bind_eq_bind, Option.bind_some]
      split
      · cases hspace
      · rfl
  · -- the required texts are read, and not all that follows them
    have hfirst : Char.ofNat 0 ∉ first.toList := fun hmem =>
      hrequired ⟨first, List.mem_cons_self, hmem⟩
    have hmore : Char.ofNat 0 ∉ each (Junction.separator j) more := by
      apply nul_not_mem_each
      · cases j <;> decide
      · exact fun s hs hmem => hrequired ⟨s, List.mem_cons_of_mem first hs, hmem⟩
    have hexcluded : ∃ s ∈ excluded, Char.ofNat 0 ∈ s.toList := by
      obtain ⟨s, hs, hmem⟩ := h
      rcases List.mem_append.mp hs with hs | hs
      · exact absurd ⟨s, hs, hmem⟩ hrequired
      · exact ⟨s, hs, hmem⟩
    have hend := (each?_beforeNul rfl (by decide : Char.ofNat 0 ∉ exclusion) hexcluded []).2
    have hbracket : beforeNul (')' :: each exclusion excluded) =
        ')' :: beforeNul (each exclusion excluded) :=
      beforeNul_append (by decide : Char.ofNat 0 ∉ [')']) _
    rw [List.append_nil] at hend
    rw [beforeNul_append (nul_not_mem_quoted hfirst), beforeNul_append hmore, hbracket]
    simp only [required?_quoted, Option.bind_eq_bind, Option.bind_some]
    split
    · next hread =>
      rw [hread] at hend
      cases hend
    · rfl

end Expression

end MetadataCatalog
