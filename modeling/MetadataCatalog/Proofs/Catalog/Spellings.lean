import MetadataCatalog.Catalog.Terms
import MetadataCatalog.Proofs.Text.Trimming

/-!
# Spelling queries

How the terms of a query are written and found again.

- **Scanning**: what stands first in a query, a blank, a phrase or a word, is taken off it, and the
  rest is scanned like a query of its own. So an induction on queries has a case for each of them
  (`scanInduction`), and an equation for each says what becomes of the terms (`ofChars_blank`,
  `ofChars_unclosed`, `ofChars_phrase`, `ofChars_word`).
- **Proper terms**: the terms of every query look like terms of their kind (`isProper_ofChars`).
- **Spellings**: a row of terms is spelled with blanks between them (`Spells`). Whatever the row,
  a spelling of proper terms has these terms, each kind in its order (`ofChars_of_spells`).

The main result puts both directions together (`terms_of_spelling`).
-/

namespace MetadataCatalog

/-- One term of a query, of one of the three kinds. -/
inductive Term where
  | word (s : String)
  | phrase (s : String)
  | excluded (s : String)
  deriving DecidableEq, Repr

namespace Term

/-- The text of a term. -/
def text : Term → String
  | word s => s
  | phrase s => s
  | excluded s => s

/-- How a term is written. -/
def chars : Term → List Char
  | word s => s.toList
  | phrase s => '"' :: (s.toList ++ ['"'])
  | excluded s => '-' :: s.toList

/-- A text without blanks and not empty. -/
def IsUnbroken (s : String) : Prop :=
  s ≠ "" ∧ s.toList.all (!Text.isBlank ·) = true

instance (s : String) : Decidable (IsUnbroken s) :=
  inferInstanceAs (Decidable (_ ∧ _))

/-- Words are unbroken and begin neither with a dash nor with a quote; phrases are trimmed, not
empty and without quotes; excluded terms are unbroken. -/
def IsProper : Term → Prop
  | word s => IsUnbroken s ∧ s.toList.head? ≠ some '-' ∧ s.toList.head? ≠ some '"'
  | phrase s => s ≠ "" ∧ Text.trim s = s ∧ '"' ∉ s.toList
  | excluded s => IsUnbroken s

instance : (t : Term) → Decidable t.IsProper
  | word _ => inferInstanceAs (Decidable (_ ∧ _))
  | phrase _ => inferInstanceAs (Decidable (_ ∧ _))
  | excluded s => inferInstanceAs (Decidable (IsUnbroken s))

end Term

namespace Terms

/-- The terms with a further one in front. -/
def cons (t : Term) (terms : Terms) : Terms :=
  match t with
  | .word s => { terms with words := s :: terms.words }
  | .phrase s => { terms with phrases := s :: terms.phrases }
  | .excluded s => { terms with excluded := s :: terms.excluded }

/-- The terms in a row, each kind in the order of the row. So the rows with the same terms are the
ways to interleave the three kinds. -/
def ofRow (row : List Term) : Terms :=
  row.foldr cons empty

theorem ofRow_cons (t : Term) (row : List Term) : ofRow (t :: row) = cons t (ofRow row) := rfl

/-- All terms are proper for their kind. -/
structure IsProper (terms : Terms) : Prop where
  words : ∀ s ∈ terms.words, (Term.word s).IsProper
  phrases : ∀ s ∈ terms.phrases, (Term.phrase s).IsProper
  excluded : ∀ s ∈ terms.excluded, (Term.excluded s).IsProper

/-! ## §1 Scanning -/

/-- A query is empty or begins with a blank. -/
def Breaks (cs : List Char) : Prop :=
  ∀ b, cs.head? = some b → Text.isBlank b = true

theorem breaks_nil : Breaks [] := by
  intro b hb
  cases hb

theorem breaks_cons {b : Char} (hb : Text.isBlank b = true) (cs : List Char) :
    Breaks (b :: cs) := by
  intro b' hb'
  cases hb'
  exact hb

/-- What follows changes nothing about how a query begins, unless it is empty. -/
theorem Breaks.append {cs more : List Char} (h : Breaks cs) (hmore : Breaks more) :
    Breaks (cs ++ more) := by
  cases cs with
  | nil => exact hmore
  | cons b cs => exact breaks_cons (h b rfl) (cs ++ more)

/-- What stands behind a word is empty or begins with a blank. -/
theorem breaks_dropWhile (cs : List Char) : Breaks (cs.dropWhile (!Text.isBlank ·)) := by
  intro b hb
  have hnot := List.head?_dropWhile_not (!Text.isBlank ·) cs
  rw [hb] at hnot
  simpa using hnot

/-- **Induction on queries.** A query is empty, or it begins with a blank, with a phrase that is
closed or not, or with a word, which goes up to the next blank. -/
@[elab_as_elim]
theorem scanInduction {motive : List Char → Prop} (nil : motive [])
    (blank : ∀ c cs, Text.isBlank c = true → motive cs → motive (c :: cs))
    (unclosed : ∀ between, '"' ∉ between → motive ('"' :: between))
    (phrase : ∀ between rest, '"' ∉ between → motive rest →
      motive ('"' :: (between ++ '"' :: rest)))
    (word : ∀ c word rest, Text.isBlank c = false → c ≠ '"' →
      word.all (!Text.isBlank ·) = true → Breaks rest → motive rest → motive (c :: (word ++ rest)))
    (cs : List Char) : motive cs := by
  induction hlength : cs.length using Nat.strong_induction_on generalizing cs with
  | _ n ih =>
    subst hlength
    cases cs with
    | nil => exact nil
    | cons c cs =>
      by_cases hc : Text.isBlank c = true
      · exact blank c cs hc (ih cs.length (by simp) cs rfl)
      by_cases hquote : c = '"'
      · subst hquote
        by_cases hmem : '"' ∈ cs
        · obtain ⟨between, rest, rfl, hbetween⟩ := List.eq_append_cons_of_mem hmem
          exact phrase between rest hbetween (ih rest.length (by simp; omega) rest rfl)
        · exact unclosed cs hmem
      · -- the word is what stands before the first blank
        have hshort := (List.dropWhile_sublist (l := cs) (p := (!Text.isBlank ·))).length_le
        rw [← List.takeWhile_append_dropWhile (p := (!Text.isBlank ·)) (l := cs)]
        apply word
        · exact Bool.eq_false_iff.mpr hc
        · exact hquote
        · exact List.all_takeWhile
        · exact breaks_dropWhile cs
        · exact ih _ (by rw [List.length_cons]; omega) _ rfl

theorem ofChars_nil : ofChars [] = empty := by
  rw [ofChars.eq_def]

theorem ofChars_blank {c : Char} (hc : Text.isBlank c = true) (cs : List Char) :
    ofChars (c :: cs) = ofChars cs := by
  conv_lhs => rw [ofChars.eq_def]
  exact if_pos hc

/-- Blanks in front count for nothing. -/
theorem ofChars_blanks {blanks : List Char} (h : blanks.all Text.isBlank = true)
    (cs : List Char) : ofChars (blanks ++ cs) = ofChars cs := by
  induction blanks with
  | nil => rfl
  | cons b blanks ih =>
    rw [List.all_cons, Bool.and_eq_true] at h
    rw [List.cons_append, ofChars_blank h.1, ih h.2]

theorem ofChars_quote (cs : List Char) :
    ofChars ('"' :: cs) = withPhrase (cs.takeWhile (· ≠ '"'))
      (ofChars ((cs.dropWhile (· ≠ '"')).drop 1)) := by
  have hblank : ¬ Text.isBlank '"' = true := by decide
  conv_lhs => rw [ofChars.eq_def]
  exact (if_neg hblank).trans (if_pos rfl)

theorem decide_ne_quote {between : List Char} (h : '"' ∉ between) :
    ∀ c ∈ between, decide (c ≠ '"') = true := by
  intro c hc
  apply decide_eq_true
  rintro rfl
  exact h hc

/-- A phrase at the beginning of a query goes up to the next quote. -/
theorem ofChars_phrase {between : List Char} (h : '"' ∉ between) (rest : List Char) :
    ofChars ('"' :: (between ++ '"' :: rest)) = withPhrase between (ofChars rest) := by
  rw [ofChars_quote, List.takeWhile_append_of_pos (decide_ne_quote h),
    List.dropWhile_append_of_pos (decide_ne_quote h)]
  simp

/-- Without a further quote, a phrase goes up to the end. -/
theorem ofChars_unclosed {between : List Char} (h : '"' ∉ between) :
    ofChars ('"' :: between) = withPhrase between empty := by
  rw [ofChars_quote, List.takeWhile_eq_self_iff.mpr (decide_ne_quote h),
    List.dropWhile_eq_nil_iff.mpr (decide_ne_quote h), List.drop_nil, ofChars_nil]

/-- A word at the beginning of a query goes up to the first blank. -/
theorem ofChars_word {c : Char} {word rest : List Char} (hc : Text.isBlank c = false)
    (hquote : c ≠ '"') (hword : word.all (!Text.isBlank ·) = true) (hrest : Breaks rest) :
    ofChars (c :: (word ++ rest)) = withWord (c :: word) (ofChars rest) := by
  have hin : ∀ b ∈ word, (!Text.isBlank b) = true := List.all_eq_true.mp hword
  conv_lhs => rw [ofChars.eq_def]
  simp only [hc, hquote, Bool.false_eq_true, if_false]
  rw [List.takeWhile_append_of_pos hin, List.dropWhile_append_of_pos hin]
  -- the blank that ends the word is dropped with it, and it would count for nothing
  cases rest with
  | nil => simp
  | cons b rest =>
    have hb : Text.isBlank b = true := hrest b rfl
    rw [List.takeWhile_cons_of_neg (by simp [hb]), List.dropWhile_cons_of_neg (by simp [hb]),
      List.append_nil, List.drop_one, List.tail_cons, ofChars_blank hb]

/-! ## §2 Proper terms -/

theorem isProper_empty : empty.IsProper := by
  constructor <;> simp [empty]

theorem IsProper.cons {t : Term} {terms : Terms} (h : terms.IsProper) (ht : t.IsProper) :
    (cons t terms).IsProper := by
  obtain ⟨hwords, hphrases, hexcluded⟩ := h
  cases t with
  | word s => exact ⟨List.forall_mem_cons.mpr ⟨ht, hwords⟩, hphrases, hexcluded⟩
  | phrase s => exact ⟨hwords, List.forall_mem_cons.mpr ⟨ht, hphrases⟩, hexcluded⟩
  | excluded s => exact ⟨hwords, hphrases, List.forall_mem_cons.mpr ⟨ht, hexcluded⟩⟩

/-- The terms of a row are proper exactly when each term in the row is. -/
theorem isProper_ofRow_iff {row : List Term} :
    (ofRow row).IsProper ↔ ∀ t ∈ row, t.IsProper := by
  induction row with
  | nil => simp [ofRow, isProper_empty]
  | cons t row ih =>
    rw [ofRow_cons, List.forall_mem_cons, ← ih]
    constructor
    · rintro ⟨hwords, hphrases, hexcluded⟩
      -- the new term stands first among those of its kind
      cases t with
      | word s =>
        obtain ⟨hs, hwords⟩ := List.forall_mem_cons.mp hwords
        exact ⟨hs, hwords, hphrases, hexcluded⟩
      | phrase s =>
        obtain ⟨hs, hphrases⟩ := List.forall_mem_cons.mp hphrases
        exact ⟨hs, hwords, hphrases, hexcluded⟩
      | excluded s =>
        obtain ⟨hs, hexcluded⟩ := List.forall_mem_cons.mp hexcluded
        exact ⟨hs, hwords, hphrases, hexcluded⟩
    · rintro ⟨ht, hrow⟩
      exact hrow.cons ht

/-- Between two quotes stands a proper phrase, if not only blanks. -/
theorem withPhrase_eq {between : List Char} (h : '"' ∉ between) (terms : Terms) :
    (Text.trimChars between = [] ∧ withPhrase between terms = terms) ∨
      ∃ s, (Term.phrase s).IsProper ∧ s.toList = Text.trimChars between ∧
        withPhrase between terms = cons (.phrase s) terms := by
  unfold withPhrase
  by_cases hblank : Text.trimChars between = []
  · exact Or.inl ⟨hblank, if_pos hblank⟩
  · refine Or.inr ⟨String.ofList (Text.trimChars between), ⟨?_, ?_, ?_⟩, String.toList_ofList,
      if_neg hblank⟩
    · rwa [ne_eq, ← String.toList_eq_nil_iff, String.toList_ofList]
    · rw [Text.trim, String.toList_ofList, Text.trimChars_trimChars]
    · rw [String.toList_ofList]
      exact fun hmem => h ((Text.trimChars_infix between).mem hmem)

/-- A row of characters without blanks that does not begin with a quote is the writing of a proper
term, if it is not a lone dash. -/
theorem withWord_eq {c : Char} {word : List Char} (hc : Text.isBlank c = false) (hquote : c ≠ '"')
    (hword : word.all (!Text.isBlank ·) = true) (terms : Terms) :
    (c :: word = ['-'] ∧ withWord (c :: word) terms = terms) ∨
      ∃ t : Term, t.IsProper ∧ t.chars = c :: word ∧ withWord (c :: word) terms = cons t terms := by
  unfold withWord
  split
  · next hdash => exact Or.inl ⟨hdash, rfl⟩
  · next rest hne heq =>
    obtain ⟨rfl, rfl⟩ := List.cons.inj heq
    have hrest : word ≠ [] := fun hnil => hne (by rw [hnil])
    refine Or.inr ⟨.excluded (String.ofList word), ⟨?_, ?_⟩, ?_, rfl⟩
    · rwa [ne_eq, ← String.toList_eq_nil_iff, String.toList_ofList]
    · rwa [String.toList_ofList]
    · rw [Term.chars, String.toList_ofList]
  · next hlone hdash =>
    have hne : c ≠ '-' := by
      rintro rfl
      exact hdash word rfl
    refine Or.inr ⟨.word (String.ofList (c :: word)), ⟨⟨?_, ?_⟩, ?_, ?_⟩, String.toList_ofList, rfl⟩
    · rw [ne_eq, ← String.toList_eq_nil_iff, String.toList_ofList]
      exact List.cons_ne_nil c word
    · simp [hc, hword]
    · simpa using hne
    · simpa using hquote

theorem IsProper.withPhrase {terms : Terms} (h : terms.IsProper) {between : List Char}
    (hbetween : '"' ∉ between) : (withPhrase between terms).IsProper := by
  rcases withPhrase_eq hbetween terms with ⟨-, heq⟩ | ⟨s, hs, -, heq⟩
  · rwa [heq]
  · rw [heq]
    exact h.cons hs

/-- **The terms of a query are proper.** -/
theorem isProper_ofChars (cs : List Char) : (ofChars cs).IsProper := by
  induction cs using scanInduction with
  | nil =>
    rw [ofChars_nil]
    exact isProper_empty
  | blank c cs hc ih => rwa [ofChars_blank hc]
  | unclosed between hbetween =>
    rw [ofChars_unclosed hbetween]
    exact isProper_empty.withPhrase hbetween
  | phrase between rest hbetween ih =>
    rw [ofChars_phrase hbetween]
    exact ih.withPhrase hbetween
  | word c word rest hc hquote hword hrest ih =>
    rw [ofChars_word hc hquote hword hrest]
    rcases withWord_eq hc hquote hword (ofChars rest) with ⟨-, heq⟩ | ⟨t, ht, -, heq⟩
    · rwa [heq]
    · rw [heq]
      exact ih.cons ht

/-! ## §3 Spellings -/

/-- A character sequence spells a row of terms: each is written, and blanks, at least one, stand
between neighbours. -/
inductive Spells : List Term → List Char → Prop where
  | nil : Spells [] []
  | last (t : Term) : Spells [t] t.chars
  | next {t u : Term} {row : List Term} {blanks cs : List Char} (hne : blanks ≠ [])
      (hblanks : blanks.all Text.isBlank = true) (h : Spells (u :: row) cs) :
      Spells (t :: u :: row) (t.chars ++ (blanks ++ cs))

/-- A proper term is scanned up to the blank behind it. -/
theorem ofChars_chars_append {t : Term} (ht : t.IsProper) {rest : List Char} (hrest : Breaks rest) :
    ofChars (t.chars ++ rest) = cons t (ofChars rest) := by
  cases t with
  | word s =>
    obtain ⟨⟨hne, hunbroken⟩, hdash, hquote⟩ := ht
    obtain ⟨c, word, hs⟩ := List.exists_cons_of_ne_nil (mt String.toList_eq_nil_iff.mp hne)
    rw [hs] at hunbroken hdash hquote
    rw [List.all_cons, Bool.and_eq_true] at hunbroken
    have hword : withWord (c :: word) (ofChars rest) = cons (.word s) (ofChars rest) := by
      rw [withWord]
      · rw [← hs, String.ofList_toList]
        rfl
      · exact fun heq => hdash (by rw [heq]; rfl)
      · exact fun more heq => hdash (by rw [heq]; rfl)
    rw [Term.chars, hs, List.cons_append, ← hword]
    apply ofChars_word
    · simpa using hunbroken.1
    · exact fun heq => hquote (by rw [heq]; rfl)
    · exact hunbroken.2
    · exact hrest
  | phrase s =>
    obtain ⟨hne, htrim, hquote⟩ := ht
    have hchars : Text.trimChars s.toList = s.toList := by
      rw [← String.toList_ofList (l := Text.trimChars s.toList)]
      exact congrArg String.toList htrim
    have hphrase : withPhrase s.toList (ofChars rest) = cons (.phrase s) (ofChars rest) := by
      rw [withPhrase, hchars, if_neg (mt String.toList_eq_nil_iff.mp hne), String.ofList_toList]
      rfl
    rw [← hphrase, ← ofChars_phrase hquote]
    simp [Term.chars]
  | excluded s =>
    obtain ⟨hne, hunbroken⟩ := ht
    obtain ⟨c, more, hs⟩ := List.exists_cons_of_ne_nil (mt String.toList_eq_nil_iff.mp hne)
    have hword : withWord ('-' :: s.toList) (ofChars rest) = cons (.excluded s) (ofChars rest) := by
      rw [hs, withWord]
      · rw [← hs, String.ofList_toList]
        rfl
      · simp
    rw [Term.chars, List.cons_append, ← hword]
    exact ofChars_word (by decide) (by decide) hunbroken hrest

/-- **A spelling of proper terms has these terms.** -/
theorem ofChars_of_spells {row : List Term} {cs : List Char} (h : Spells row cs)
    (hproper : ∀ t ∈ row, t.IsProper) : ofChars cs = ofRow row := by
  induction h with
  | nil => exact ofChars_nil
  | last t =>
    have hone := ofChars_chars_append (hproper t List.mem_cons_self) breaks_nil
    rwa [List.append_nil, ofChars_nil] at hone
  | @next t u row blanks cs hne hblanks _ ih =>
    -- the first blank ends the term, and all of them go unnoticed in front of the next one
    have hrest : Breaks (blanks ++ cs) := by
      obtain ⟨b, blanks, rfl⟩ := List.exists_cons_of_ne_nil hne
      exact breaks_cons (List.all_eq_true.mp hblanks b List.mem_cons_self) (blanks ++ cs)
    have hmore : ofChars cs = ofRow (u :: row) :=
      ih fun t' ht' => hproper t' (List.mem_cons_of_mem t ht')
    rw [ofChars_chars_append (hproper t List.mem_cons_self) hrest, ofChars_blanks hblanks, hmore]
    rfl

/-- **Queries and their terms.** The words of every query are not empty, have no blanks and begin
neither with a dash nor with a quote, its phrases are not empty, trimmed and without quotes, and its
excluded terms are not empty and have no blanks. And whatever three lists of such terms are
interleaved in a row and spelled with blanks in between, the query has these three lists as its
terms. -/
theorem terms_of_spelling :
    (∀ query : String, (ofText query).IsProper) ∧
    ∀ (terms : Terms) (row : List Term) (query : String), terms.IsProper → ofRow row = terms →
      Spells row query.toList → ofText query = terms := by
  refine ⟨fun query => isProper_ofChars query.toList, ?_⟩
  rintro terms row query hproper rfl hspells
  exact ofChars_of_spells hspells (isProper_ofRow_iff.mp hproper)

/-- A word with a quote inside, a phrase between excluded terms that look like other terms, and
several blanks in a row. -/
theorem terms_of_spelling_mixed :
    (⟨["say\"hi", "b"], ["beam  energy"], ["-x", "\"y"]⟩ : Terms).IsProper ∧
      ofText "say\"hi --x\t\"beam  energy\" \n-\"y b" =
        ⟨["say\"hi", "b"], ["beam  energy"], ["-x", "\"y"]⟩ := by
  have hproper : (⟨["say\"hi", "b"], ["beam  energy"], ["-x", "\"y"]⟩ : Terms).IsProper := by
    constructor <;> decide +kernel
  have hspells : Spells [.word "say\"hi", .excluded "-x", .phrase "beam  energy", .excluded "\"y",
      .word "b"] "say\"hi --x\t\"beam  energy\" \n-\"y b".toList := by
    have hlast : Spells [.excluded "\"y", .word "b"] "-\"y b".toList :=
      @Spells.next _ _ _ [' '] _ (by decide) (by decide) (.last _)
    have hphrase := @Spells.next (.phrase "beam  energy") _ _ [' ', '\n'] _ (by decide)
      (by decide) hlast
    have hdashes := @Spells.next (.excluded "-x") _ _ ['\t'] _ (by decide) (by decide) hphrase
    exact @Spells.next (.word "say\"hi") _ _ [' '] _ (by decide) (by decide) hdashes
  exact ⟨hproper, terms_of_spelling.2 _ _ _ hproper rfl hspells⟩

end Terms

end MetadataCatalog
