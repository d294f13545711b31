import MetadataCatalog.Proofs.Catalog.Parameters
import MetadataCatalog.Proofs.Catalog.StoreRuns

/-!
# Searching for a single word

A word of letters and digits that stands alone in a text, between spaces or at an end
(`StandsAlone`), is one of the tokens of the text (`StandsAlone.token_mem`). As a query it asks for
itself, so every record with that text is found (`StandsAlone.mem_search`).
-/

namespace MetadataCatalog

/-- A word of letters and digits of ASCII that has a space, or nothing, on either side in a text. -/
structure StandsAlone (word text : String) : Prop where
  ne_empty : word ≠ ""
  alphanum : ∀ c ∈ word.toList, c.isAlphanum = true
  between : ∃ before after, text.toList = before ++ word.toList ++ after ∧
    (before = [] ∨ ∃ more, before = more ++ [' ']) ∧ (after = [] ∨ ∃ more, after = ' ' :: more)

/-! ## §1 Characters -/

namespace Text

/-- Letters and digits of ASCII are word characters. -/
theorem isWordChar_of_isAlphanum {c : Char} (h : c.isAlphanum = true) : isWordChar c = true := by
  have hall : ∀ n : Fin 123, (Char.ofNat n.val).isAlphanum = true →
      inRanges n.val wordRanges = true := by decide +kernel
  obtain ⟨-, hhigh⟩ := CollectionName.toNat_of_isAlphanum h
  exact hall ⟨c.toNat, by omega⟩ (by rwa [Char.ofNat_toNat])

theorem isBlank_of_isAlphanum {c : Char} (h : c.isAlphanum = true) : isBlank c = false :=
  CollectionName.isBlank_of_isNameChar (Bool.or_eq_true_iff.mpr (Or.inl h))

end Text

/-! ## §2 Tokens -/

namespace Tokens

theorem takeWhile_append_stop {α : Type} {p : α → Bool} {a : α} (h : p a = false) (xs ys : List α) :
    (xs ++ a :: ys).takeWhile p = xs.takeWhile p ∧
      (xs ++ a :: ys).dropWhile p = xs.dropWhile p ++ a :: ys := by
  induction xs with
  | nil => simp [h]
  | cons x xs ih => by_cases hx : p x = true <;> simp [hx, ih]

/-- A character that is in no word separates the tokens before it from those after it. -/
theorem ofChars_append {c : Char} (h : continues c = false) (before after : List Char) :
    ofChars (before ++ c :: after) = ofChars before ++ ofChars after := by
  have hword : Text.isWordChar c = false := (Bool.or_eq_false_iff.mp h).1
  fun_induction ofChars before with
  | case1 => rw [List.nil_append, List.nil_append, ofChars, if_neg (by simp [hword])]
  | case2 first rest hfirst ih =>
    obtain ⟨htake, hdrop⟩ := takeWhile_append_stop h rest after
    rw [List.cons_append, ofChars, if_pos hfirst, htake, hdrop, ih, List.cons_append]
  | case3 first rest hfirst ih => rw [List.cons_append, ofChars, if_neg hfirst, ih]

/-- A word of word characters is one token. -/
theorem ofChars_word {c : Char} {word : List Char}
    (h : ∀ a ∈ c :: word, Text.isWordChar a = true) :
    ofChars (c :: word) = [ofWord (c :: word)] := by
  have hcontinues : ∀ a ∈ word, continues a = true := fun a ha =>
    Bool.or_eq_true_iff.mpr (Or.inl (h a (List.mem_cons_of_mem _ ha)))
  have hnil : ofChars [] = [] := by rw [ofChars]
  rw [ofChars, if_pos (h c List.mem_cons_self), List.takeWhile_eq_self_iff.mpr hcontinues,
    List.dropWhile_eq_nil_iff.mpr hcontinues, hnil]

end Tokens

namespace StandsAlone

variable {word text : String} (h : StandsAlone word text)

include h

theorem exists_cons : ∃ c rest, word.toList = c :: rest :=
  List.exists_cons_of_ne_nil fun hnil => h.ne_empty (String.toList_eq_nil_iff.mp hnil)

/-- The word is a token of its own. -/
theorem tokens_eq : Tokens.ofText word = [Tokens.ofWord word.toList] := by
  obtain ⟨c, rest, hword⟩ := h.exists_cons
  rw [Tokens.ofText, hword]
  exact Tokens.ofChars_word fun a ha => Text.isWordChar_of_isAlphanum (h.alphanum a (hword ▸ ha))

/-- The word is among the tokens of the text. -/
theorem token_mem : Tokens.ofWord word.toList ∈ Tokens.ofText text := by
  obtain ⟨before, after, htext, hbefore, hafter⟩ := h.between
  have hspace : Tokens.continues ' ' = false := by decide +kernel
  have hword := h.tokens_eq
  rw [Tokens.ofText] at hword
  -- what follows the word is a space, which ends it
  have hfront : Tokens.ofWord word.toList ∈ Tokens.ofChars (word.toList ++ after) := by
    rcases hafter with rfl | ⟨more, rfl⟩
    · simp [hword]
    · simp [Tokens.ofChars_append hspace, hword]
  rw [Tokens.ofText, htext, List.append_assoc]
  rcases hbefore with rfl | ⟨more, rfl⟩
  · exact hfront
  · rw [List.append_assoc, List.singleton_append, Tokens.ofChars_append hspace]
    exact List.mem_append_right _ hfront

/-! ## §3 Queries -/

/-- The word is a proper term of a query. -/
theorem isProper : (Term.word word).IsProper := by
  have hblank : word.toList.all (!Text.isBlank ·) = true := by
    simpa using fun a ha => Text.isBlank_of_isAlphanum (h.alphanum a ha)
  refine ⟨⟨h.ne_empty, hblank⟩, fun hdash => ?_, fun hquote => ?_⟩
  · cases h.alphanum '-' (List.mem_of_head? hdash)
  · cases h.alphanum '"' (List.mem_of_head? hquote)

/-- As a query the word asks for itself. -/
theorem ofQuery_eq : Expression.ofQuery word = .ok ⟨.any, [word], []⟩ := by
  have htrim : Text.trim word = word :=
    Text.trim_eq_self_of_no_blank fun a ha => Text.isBlank_of_isAlphanum (h.alphanum a ha)
  have hterms : Terms.ofText (Text.trim word) = ⟨[word], [], []⟩ := by
    rw [htrim]
    exact Terms.ofChars_of_spells (.last (.word word)) (by simpa using h.isProper)
  have hrequired : (Expression.ofTerms (Terms.ofText (Text.trim word))).required ≠ [] := by
    rw [hterms]
    simp [Expression.ofTerms]
  rw [Expression.ofQuery_of_required hrequired, hterms]
  rfl

/-- **A search for the word** finds every record with the text. -/
theorem mem_search (c : Collection) :
    ∃ found, c.search word = .ok found ∧ ∀ r ∈ c, r.text = text → r ∈ found := by
  have hnul : Char.ofNat 0 ∉ word.toList := by
    intro hmem
    cases h.alphanum _ hmem
  have hdepth : (⟨.any, [word], []⟩ : Expression).depth ≤ Expression.depthLimit := by
    simp [Expression.depth]
  refine ⟨_, (Collection.search_of_ofQuery h.ofQuery_eq hnul c).trans (if_pos hdepth), ?_⟩
  intro r hr htext
  refine (Ranking.sorted_perm _ _).mem_iff.mpr (List.mem_filter.mpr ⟨hr, ?_⟩)
  -- the only token of the word is one of the tokens of the record
  have hoccurs : Expression.occursIn r.tokens word = true := by
    refine Expression.occursIn_iff.mpr ⟨by simp [h.tokens_eq], ?_⟩
    obtain ⟨front, back, hsplit⟩ := List.append_of_mem h.token_mem
    rw [h.tokens_eq, CatalogRecord.tokens, htext]
    exact ⟨front, back, by rw [hsplit, List.append_assoc, List.singleton_append]⟩
  simp [Expression.holds, hoccurs]

end StandsAlone

end MetadataCatalog
