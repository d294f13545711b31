import MetadataCatalog.Catalog.Expression

/-!
# Quoting

Whatever a user writes stands in a match expression between quotes, and nothing of it gets out of
them. The layers are

- **Strings**: after its opening quote a string runs to the first quote that is not followed by
  another one, and two quotes stand for one (`Closes`). What is between the quotes of a written text
  reads as that text, whatever stands in it (`closes_doubled`), and in no other way
  (`Closes.unique`).
- **Symbols**: brackets, strings and bare words, with blanks between them (`Lexes`). A character
  sequence has at most one row of symbols (`Lexes.unique`).
- **Readings**: strings in brackets with words between them, and strings after a `NOT`
  (`Reading.symbols`). A row of symbols has at most one reading (`Reading.symbols_injective`).

The main result says what the expression of a query reads as (`ofQuery_reads`).
-/

namespace MetadataCatalog

namespace Expression

/-! ## §1 Strings -/

/-- The characters behind an opening quote are a string, given as what it stands for, up to its
closing quote, and the rest. -/
inductive Closes : List Char → List Char → List Char → Prop where
  /-- A quote ends the string unless a quote follows it. -/
  | ends {rest : List Char} (h : rest.head? ≠ some '"') : Closes ('"' :: rest) [] rest
  /-- Two quotes stand for one. -/
  | quote {cs s rest : List Char} (h : Closes cs s rest) :
      Closes ('"' :: '"' :: cs) ('"' :: s) rest
  /-- Every other character stands for itself. -/
  | other {c : Char} {cs s rest : List Char} (hc : c ≠ '"') (h : Closes cs s rest) :
      Closes (c :: cs) (c :: s) rest

theorem doubled_cons (c : Char) (cs : List Char) :
    doubled (c :: cs) = (if c = '"' then ['"', '"'] else [c]) ++ doubled cs := rfl

/-- A text with its quotes doubled, and a quote behind it, is a string that stands for the text. -/
theorem closes_doubled (s : List Char) {rest : List Char} (h : rest.head? ≠ some '"') :
    Closes (doubled s ++ '"' :: rest) s rest := by
  induction s with
  | nil => exact .ends h
  | cons c s ih =>
    rw [doubled_cons, List.append_assoc]
    by_cases hc : c = '"'
    · rw [if_pos hc, hc]
      exact .quote ih
    · rw [if_neg hc]
      exact .other hc ih

/-- A string ends at one place only. -/
theorem Closes.unique {cs s s' rest rest' : List Char} (h : Closes cs s rest)
    (h' : Closes cs s' rest') : s = s' ∧ rest = rest' := by
  induction h generalizing s' rest' with
  | ends hrest =>
    cases h' with
    | ends _ => exact ⟨rfl, rfl⟩
    -- a quote follows, and then the first one does not end the string
    | quote _ => exact absurd rfl hrest
    | other hc _ => exact absurd rfl hc
  | quote _ ih =>
    cases h' with
    | ends hrest => exact absurd rfl hrest
    | quote h' =>
      obtain ⟨rfl, rfl⟩ := ih h'
      exact ⟨rfl, rfl⟩
    | other hc _ => exact absurd rfl hc
  | other hc _ ih =>
    cases h' with
    | ends _ => exact absurd rfl hc
    | quote _ => exact absurd rfl hc
    | other _ h' =>
      obtain ⟨rfl, rfl⟩ := ih h'
      exact ⟨rfl, rfl⟩

/-! ## §2 Symbols -/

/-- The characters of bare words: letters, digits, underscores, and everything outside ASCII. -/
def isBare (c : Char) : Bool :=
  c.isAlphanum || c == '_' || c == Char.ofNat 26 || 128 ≤ c.toNat

/-- The characters between symbols. -/
def isSpace (c : Char) : Bool :=
  c == ' ' || c == '\t' || c == '\n' || c == '\r'

/-- What an expression is made of. -/
inductive Symbol where
  | opening
  | closing
  | string (s : String)
  | word (w : List Char)
  deriving DecidableEq, Repr

/-- A character sequence is a row of symbols. -/
inductive Lexes : List Char → List Symbol → Prop where
  | nil : Lexes [] []
  | space {c : Char} {cs : List Char} {symbols : List Symbol} (hc : isSpace c = true)
      (h : Lexes cs symbols) : Lexes (c :: cs) symbols
  | opening {cs : List Char} {symbols : List Symbol} (h : Lexes cs symbols) :
      Lexes ('(' :: cs) (.opening :: symbols)
  | closing {cs : List Char} {symbols : List Symbol} (h : Lexes cs symbols) :
      Lexes (')' :: cs) (.closing :: symbols)
  /-- A quote opens a string. -/
  | string {cs s rest : List Char} {symbols : List Symbol} (hs : Closes cs s rest)
      (h : Lexes rest symbols) : Lexes ('"' :: cs) (.string (String.ofList s) :: symbols)
  /-- A bare word goes as far as it can. -/
  | word {c : Char} {cs : List Char} {symbols : List Symbol} (hc : isBare c = true)
      (h : Lexes (cs.dropWhile isBare) symbols) :
      Lexes (c :: cs) (.word (c :: cs.takeWhile isBare) :: symbols)

theorem isBare_eq_false_of_isSpace {c : Char} (h : isSpace c = true) : isBare c = false := by
  simp only [isSpace, Bool.or_eq_true, beq_iff_eq] at h
  rcases h with ((rfl | rfl) | rfl) | rfl <;> decide

/-- No character sequence is two rows of symbols: the first character says which symbol is next. -/
theorem Lexes.unique {cs : List Char} {symbols symbols' : List Symbol} (h : Lexes cs symbols)
    (h' : Lexes cs symbols') : symbols = symbols' := by
  induction h generalizing symbols' with
  | nil =>
    cases h'
    rfl
  | space hc _ ih =>
    cases h' with
    | space _ h' => exact ih h'
    | opening _ => exact absurd hc (by decide)
    | closing _ => exact absurd hc (by decide)
    | string _ _ => exact absurd hc (by decide)
    | word hbare _ => simp [isBare_eq_false_of_isSpace hc] at hbare
  -- brackets and quotes are neither spaces nor part of a word
  | opening _ ih =>
    cases h' with
    | space hc _ => exact absurd hc (by decide)
    | opening h' => rw [ih h']
    | word hbare _ => exact absurd hbare (by decide)
  | closing _ ih =>
    cases h' with
    | space hc _ => exact absurd hc (by decide)
    | closing h' => rw [ih h']
    | word hbare _ => exact absurd hbare (by decide)
  | string hs _ ih =>
    cases h' with
    | space hc _ => exact absurd hc (by decide)
    | string hs' h' =>
      -- both derivations end the string at one place, so they go on with one rest
      obtain ⟨rfl, rfl⟩ := hs.unique hs'
      rw [ih h']
    | word hbare _ => exact absurd hbare (by decide)
  | word hbare _ ih =>
    cases h' with
    | space hc _ => simp [isBare_eq_false_of_isSpace hc] at hbare
    | opening _ => exact absurd hbare (by decide)
    | closing _ => exact absurd hbare (by decide)
    | string _ _ => exact absurd hbare (by decide)
    | word _ h' => rw [ih h']

/-- A text between quotes is one string, unless a quote follows it. -/
theorem lexes_quoted (s : String) {rest : List Char} {symbols : List Symbol}
    (hrest : rest.head? ≠ some '"') (h : Lexes rest symbols) :
    Lexes (quoted s ++ rest) (.string s :: symbols) := by
  have hs := Lexes.string (closes_doubled s.toList hrest) h
  rw [String.ofList_toList] at hs
  simpa [quoted] using hs

/-- A bare word between spaces is one word. -/
theorem lexes_spaced {w cs : List Char} {symbols : List Symbol} (hne : w ≠ [])
    (hw : w.all isBare = true) (h : Lexes cs symbols) :
    Lexes (' ' :: w ++ ' ' :: cs) (.word w :: symbols) := by
  obtain ⟨c, w, rfl⟩ := List.exists_cons_of_ne_nil hne
  rw [List.all_cons, Bool.and_eq_true, List.all_eq_true] at hw
  have hspace : isBare ' ' = false := by decide
  have htake : (w ++ ' ' :: cs).takeWhile isBare = w := by
    rw [List.takeWhile_append_of_pos hw.2, List.takeWhile_cons_of_neg (by simp [hspace]),
      List.append_nil]
  have hdrop : (w ++ ' ' :: cs).dropWhile isBare = ' ' :: cs := by
    rw [List.dropWhile_append_of_pos hw.2, List.dropWhile_cons_of_neg (by simp [hspace])]
  have hword : Lexes (c :: (w ++ ' ' :: cs)) (.word (c :: w) :: symbols) := by
    have hrest : Lexes ((w ++ ' ' :: cs).dropWhile isBare) symbols := by
      rw [hdrop]
      exact .space (by decide) h
    have := Lexes.word hw.1 hrest
    rwa [htake] at this
  exact .space (by decide) hword

/-! ## §3 Readings -/

/-- The word between two required texts. -/
def Junction.word : Junction → List Char
  | .any => ['O', 'R']
  | .all => ['A', 'N', 'D']

/-- The word before an excluded text. -/
def exclusionWord : List Char := ['N', 'O', 'T']

/-- Required texts in brackets, each but the first behind the word that joins it to those before,
and excluded texts. -/
structure Reading where
  first : String
  more : List (Junction × String)
  excluded : List String
  deriving DecidableEq, Repr

namespace Reading

/-- The symbols of further required texts. -/
def moreSymbols (more : List (Junction × String)) : List Symbol :=
  more.flatMap fun (junction, s) => [.word (Junction.word junction), .string s]

/-- The symbols of excluded texts. -/
def excludedSymbols (excluded : List String) : List Symbol :=
  excluded.flatMap fun s => [.word exclusionWord, .string s]

/-- The symbols that a reading is made of. -/
def symbols (r : Reading) : List Symbol :=
  .opening :: .string r.first ::
    (moreSymbols r.more ++ .closing :: excludedSymbols r.excluded)

/-- The required texts in order. -/
def required (r : Reading) : List String :=
  r.first :: r.more.map Prod.snd

end Reading

theorem Junction.word_injective {j j' : Junction} (h : Junction.word j = Junction.word j') :
    j = j' := by
  cases j <;> cases j' <;> first | rfl | exact absurd h (by decide)

namespace Reading

theorem excludedSymbols_injective {excluded excluded' : List String}
    (h : excludedSymbols excluded = excludedSymbols excluded') : excluded = excluded' := by
  induction excluded generalizing excluded' with
  | nil =>
    cases excluded' with
    | nil => rfl
    | cons s' rest' => cases h
  | cons s rest ih =>
    cases excluded' with
    | nil => cases h
    | cons s' rest' =>
      simp only [excludedSymbols, List.flatMap_cons, List.cons_append, List.nil_append,
        List.cons.injEq, Symbol.string.injEq, true_and] at h
      rw [h.1, ih h.2]

/-- The closing bracket tells where the required texts end. -/
theorem moreSymbols_append_injective {more more' : List (Junction × String)}
    {rest rest' : List Symbol}
    (h : moreSymbols more ++ .closing :: rest = moreSymbols more' ++ .closing :: rest') :
    more = more' ∧ rest = rest' := by
  induction more generalizing more' with
  | nil =>
    cases more' with
    | nil => exact ⟨rfl, (List.cons.inj h).2⟩
    | cons p' more' => cases h
  | cons p more ih =>
    cases more' with
    | nil => cases h
    | cons p' more' =>
      obtain ⟨j, s⟩ := p
      obtain ⟨j', s'⟩ := p'
      simp only [moreSymbols, List.flatMap_cons, List.cons_append, List.nil_append,
        List.cons.injEq, Symbol.word.injEq, Symbol.string.injEq] at h
      obtain ⟨hword, rfl, hmore⟩ := h
      obtain ⟨rfl, rfl⟩ := ih hmore
      rw [Junction.word_injective hword]
      exact ⟨rfl, rfl⟩

/-- Symbols have at most one reading. -/
theorem symbols_injective {r r' : Reading} (h : r.symbols = r'.symbols) : r = r' := by
  obtain ⟨first, more, excluded⟩ := r
  obtain ⟨first', more', excluded'⟩ := r'
  simp only [symbols, List.cons.injEq, Symbol.string.injEq, true_and] at h
  obtain ⟨rfl, hmore⟩ := h
  obtain ⟨rfl, hexcluded⟩ := moreSymbols_append_injective hmore
  rw [excludedSymbols_injective hexcluded]

end Reading

/-- A character sequence reads as required and excluded texts. -/
def Reads (cs : List Char) (r : Reading) : Prop :=
  Lexes cs r.symbols

/-- **One reading only.** -/
theorem Reads.unique {cs : List Char} {r r' : Reading} (h : Reads cs r) (h' : Reads cs r') :
    r = r' :=
  Reading.symbols_injective (Lexes.unique h h')

/-! ## §4 What is written -/

theorem each_nil (before : List Char) : each before [] = [] := rfl

theorem each_cons (before : List Char) (s : String) (texts : List String) :
    each before (s :: texts) = before ++ quoted s ++ each before texts := rfl

/-- No quote stands behind a text in quotes. -/
theorem head?_each_append {before rest : List Char} (hbefore : before.head? = some ' ')
    (hrest : rest.head? ≠ some '"') (texts : List String) :
    (each before texts ++ rest).head? ≠ some '"' := by
  cases texts with
  | nil => exact hrest
  | cons s texts =>
    rw [each_cons, List.append_assoc, List.append_assoc, List.head?_append, hbefore,
      Option.some_or]
    decide

theorem separator_eq (j : Junction) : Junction.separator j = ' ' :: Junction.word j ++ [' '] := by
  cases j <;> rfl

theorem lexes_separator (j : Junction) {cs : List Char} {symbols : List Symbol}
    (h : Lexes cs symbols) :
    Lexes (Junction.separator j ++ cs) (.word (Junction.word j) :: symbols) := by
  have hword := lexes_spaced (w := Junction.word j) (by cases j <;> decide)
    (by cases j <;> decide) h
  rw [separator_eq]
  simpa using hword

theorem lexes_exclusion {cs : List Char} {symbols : List Symbol} (h : Lexes cs symbols) :
    Lexes (exclusion ++ cs) (.word exclusionWord :: symbols) :=
  lexes_spaced (w := exclusionWord) (by decide) (by decide) h

theorem lexes_each_separator (j : Junction) (texts : List String) {rest : List Char}
    {symbols : List Symbol} (hrest : rest.head? ≠ some '"') (h : Lexes rest symbols) :
    Lexes (each (Junction.separator j) texts ++ rest)
      (Reading.moreSymbols (texts.map fun s => (j, s)) ++ symbols) := by
  have hhead : (Junction.separator j).head? = some ' ' := by cases j <;> rfl
  induction texts with
  | nil => exact h
  | cons s texts ih =>
    rw [each_cons, List.append_assoc, List.append_assoc]
    exact lexes_separator j (lexes_quoted s (head?_each_append hhead hrest texts) ih)

theorem lexes_each_exclusion (texts : List String) :
    Lexes (each exclusion texts) (Reading.excludedSymbols texts) := by
  induction texts with
  | nil => exact .nil
  | cons s texts ih =>
    rw [each_cons, List.append_assoc]
    have hhead : (each exclusion texts ++ []).head? ≠ some '"' :=
      head?_each_append rfl (by decide) texts
    rw [List.append_nil] at hhead
    exact lexes_exclusion (lexes_quoted s hhead ih)

/-- The written form of an expression, taken apart. -/
theorem chars_cons (j : Junction) (first : String) (more excluded : List String) :
    chars ⟨j, first :: more, excluded⟩ = '(' ::
      (quoted first ++ (each (Junction.separator j) more ++ ')' :: each exclusion excluded)) := by
  have hdrop : (each (Junction.separator j) (first :: more)).drop (Junction.separator j).length =
      quoted first ++ each (Junction.separator j) more := by
    rw [each_cons, List.append_assoc, List.drop_left]
  rw [chars, hdrop]
  simp

/-- The reading of an expression with required texts. -/
def readingOf (j : Junction) (first : String) (more excluded : List String) : Reading :=
  ⟨first, more.map fun s => (j, s), excluded⟩

/-- **A written expression reads as the expression.** -/
theorem reads_chars (j : Junction) (first : String) (more excluded : List String) :
    Reads (chars ⟨j, first :: more, excluded⟩) (readingOf j first more excluded) := by
  have hclosing : (')' :: each exclusion excluded).head? ≠ some '"' := by simp
  have hspace : (Junction.separator j).head? = some ' ' := by cases j <;> rfl
  have hhead := head?_each_append hspace hclosing more
  have hmore := lexes_each_separator j more hclosing (.closing (lexes_each_exclusion excluded))
  rw [chars_cons]
  exact .opening (lexes_quoted first hhead hmore)

/-! ## §5 The expression of a query -/

/-- The required texts of terms: the phrases if there are any, else the words. -/
theorem required_ofTerms (terms : Terms) :
    (ofTerms terms).required = if terms.phrases = [] then terms.words else terms.phrases := by
  unfold ofTerms
  split <;> rfl

theorem excluded_ofTerms (terms : Terms) : (ofTerms terms).excluded = terms.excluded := by
  unfold ofTerms
  split <;> rfl

/-- Several texts are joined as their kind asks for. -/
theorem junction_ofTerms {terms : Terms} (h : 2 ≤ (ofTerms terms).required.length) :
    (ofTerms terms).junction = if terms.phrases = [] then .any else .all := by
  rw [required_ofTerms] at h
  unfold ofTerms
  by_cases hphrases : terms.phrases = []
  · simp [hphrases]
  · rw [if_neg hphrases] at h
    simp [hphrases, h]

theorem required_ofTerms_eq_nil_iff (terms : Terms) :
    (ofTerms terms).required = [] ↔ terms.words = [] ∧ terms.phrases = [] := by
  rw [required_ofTerms]
  by_cases h : terms.phrases = []
  · simp [h]
  · simp [h]

theorem ofQuery_of_required {query : String}
    (h : (ofTerms (Terms.ofText (Text.trim query))).required ≠ []) :
    ofQuery query = .ok (ofTerms (Terms.ofText (Text.trim query))) := by
  have hne : Text.trim query ≠ "" := by
    intro hempty
    have hterms : Terms.ofText "" = .empty := by
      unfold Terms.ofText Terms.ofChars
      rfl
    rw [hempty, hterms] at h
    exact h rfl
  rw [ofQuery, if_neg hne, if_neg h]

theorem ofQuery_of_required_eq_nil {query : String}
    (h : (ofTerms (Terms.ofText (Text.trim query))).required = []) :
    ∃ why, ofQuery query = .error (.refused why) := by
  unfold ofQuery
  by_cases hempty : Text.trim query = ""
  · exact ⟨_, if_pos hempty⟩
  · exact ⟨_, (if_neg hempty).trans (if_pos h)⟩

theorem ofQuery_eq_ok_iff {query : String} {e : Expression} :
    ofQuery query = .ok e ↔ (ofTerms (Terms.ofText (Text.trim query))).required ≠ [] ∧
      ofTerms (Terms.ofText (Text.trim query)) = e := by
  by_cases h : (ofTerms (Terms.ofText (Text.trim query))).required = []
  · obtain ⟨why, hwhy⟩ := ofQuery_of_required_eq_nil h
    simp [hwhy, h]
  · simp [ofQuery_of_required h, h]

/-- The reading of the expression of terms. -/
theorem exists_reading {terms : Terms} (h : (ofTerms terms).required ≠ []) :
    ∃ r, Reads (ofTerms terms).text.toList r ∧
      (∀ r', Reads (ofTerms terms).text.toList r' → r' = r) ∧
      r.required = (if terms.phrases = [] then terms.words else terms.phrases) ∧
      (∀ p ∈ r.more, p.1 = if terms.phrases = [] then .any else .all) ∧
      r.excluded = terms.excluded := by
  obtain ⟨first, more, hrequired⟩ := List.exists_cons_of_ne_nil h
  have hreads := reads_chars (ofTerms terms).junction first more (ofTerms terms).excluded
  have htext : (ofTerms terms).text.toList = (ofTerms terms).chars := String.toList_ofList
  rw [← hrequired] at hreads
  rw [htext]
  refine ⟨_, hreads, fun r' h' => h'.unique hreads, ?_, ?_, excluded_ofTerms terms⟩
  -- what stands first and what follows it are the required texts
  · rw [← required_ofTerms, hrequired]
    simp [Reading.required, readingOf, Function.comp_def]
  -- a word that joins is there only if there are several of them
  · intro p hp
    obtain ⟨s, hs, rfl⟩ := List.mem_map.mp hp
    apply junction_ofTerms
    rw [hrequired, List.length_cons]
    have := List.length_pos_of_mem hs
    omega

/-- **No way out of the quotes.** A query without words and phrases is refused. Every other query
has an expression whose written form has one reading and no other: its phrases, joined by `AND`, or
if there are none its words, joined by `OR`, and then its excluded terms, all as they stand in the
query. -/
theorem ofQuery_reads (query : String) :
    let terms := Terms.ofText (Text.trim query)
    match ofQuery query with
    | .error fault => fault.kind = .invalidInput ∧ terms.words = [] ∧ terms.phrases = []
    | .ok e =>
      ¬ (terms.words = [] ∧ terms.phrases = []) ∧
        ∃ r, Reads e.text.toList r ∧ (∀ r', Reads e.text.toList r' → r' = r) ∧
          r.required = (if terms.phrases = [] then terms.words else terms.phrases) ∧
          (∀ p ∈ r.more, p.1 = if terms.phrases = [] then .any else .all) ∧
          r.excluded = terms.excluded := by
  intro terms
  have hiff := required_ofTerms_eq_nil_iff terms
  rcases Decidable.em ((ofTerms terms).required = []) with hnone | hsome
  · obtain ⟨why, hwhy⟩ := ofQuery_of_required_eq_nil hnone
    rw [hwhy]
    exact ⟨rfl, hiff.mp hnone⟩
  · rw [ofQuery_of_required hsome]
    exact ⟨fun h => hsome (hiff.mpr h), exists_reading hsome⟩

end Expression

end MetadataCatalog
