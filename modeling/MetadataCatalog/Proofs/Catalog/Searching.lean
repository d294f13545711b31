import MetadataCatalog.Proofs.Catalog.ReadBack
import MetadataCatalog.Catalog.Collection

/-!
# Searching

What a search finds. A term occurs in a text when it has tokens and they follow each other among the
tokens of the text, and a record matches the terms of a query when what they ask for occurs in it
and nothing that they exclude does (`Terms.Matches`). A search finds the records that match, each as
often as it is in the collection (`select_perm`), unless the expression of the query is nested too
deep; then it fails (`search_of_ofQuery`), as it does when there is a NUL in what is searched for
(`search_eq_ok_iff`).
-/

namespace MetadataCatalog

/-! ## §1 Matching -/

namespace Tokens

theorem holds_cons (phrase : List String) (token : String) (rest : List String) :
    holds phrase (token :: rest) = true ↔
      (phrase ≠ [] ∧ phrase <+: token :: rest) ∨ holds phrase rest = true := by
  simp only [holds, occurrences, bne_iff_ne, ne_eq]
  by_cases h : (!phrase.isEmpty && phrase.isPrefixOf (token :: rest)) = true
  · have hprefix : phrase ≠ [] ∧ phrase <+: token :: rest := by
      simpa [List.isPrefixOf_iff_prefix] using h
    simp [h, hprefix]
  · have hnot : ¬ (phrase ≠ [] ∧ phrase <+: token :: rest) := by
      simpa [List.isPrefixOf_iff_prefix] using h
    simp [h, hnot]

/-- A phrase is held where its tokens, at least one, follow each other. -/
theorem holds_iff {phrase tokens : List String} :
    holds phrase tokens = true ↔ phrase ≠ [] ∧ phrase <:+: tokens := by
  induction tokens with
  | nil => simp [holds, occurrences]
  | cons token rest ih =>
    rw [holds_cons, ih, List.infix_cons_iff]
    constructor
    · rintro (⟨hne, hprefix⟩ | ⟨hne, hinfix⟩)
      · exact ⟨hne, Or.inl hprefix⟩
      · exact ⟨hne, Or.inr hinfix⟩
    · rintro ⟨hne, hprefix | hinfix⟩
      · exact Or.inl ⟨hne, hprefix⟩
      · exact Or.inr ⟨hne, hinfix⟩

end Tokens

/-- A term has tokens, and they follow each other among the tokens of the record. -/
def CatalogRecord.Mentions (r : CatalogRecord) (term : String) : Prop :=
  Tokens.ofText term ≠ [] ∧ Tokens.ofText term <:+: r.tokens

instance (r : CatalogRecord) (term : String) : Decidable (r.Mentions term) :=
  inferInstanceAs (Decidable (_ ∧ _))

/-- A record mentions all phrases or, if there are none, one of the words, and no excluded term. -/
def Terms.Matches (terms : Terms) (r : CatalogRecord) : Prop :=
  (if terms.phrases = [] then ∃ word ∈ terms.words, r.Mentions word
    else ∀ phrase ∈ terms.phrases, r.Mentions phrase) ∧
  ∀ term ∈ terms.excluded, ¬ r.Mentions term

instance (terms : Terms) (r : CatalogRecord) : Decidable (terms.Matches r) :=
  inferInstanceAs (Decidable (_ ∧ _))

namespace Expression

theorem occursIn_iff {r : CatalogRecord} {term : String} :
    occursIn r.tokens term = true ↔ r.Mentions term :=
  Tokens.holds_iff

/-- The expression of terms holds of the records that match the terms. -/
theorem holds_ofTerms_iff {terms : Terms} {r : CatalogRecord} :
    (ofTerms terms).holds r.tokens = true ↔ terms.Matches r := by
  have hexcluded : (!(ofTerms terms).excluded.any (occursIn r.tokens)) = true ↔
      ∀ term ∈ terms.excluded, ¬ r.Mentions term := by
    simp only [excluded_ofTerms, Bool.not_eq_true', List.any_eq_false, occursIn_iff]
  rw [holds, Bool.and_eq_true, hexcluded, Terms.Matches]
  refine and_congr_left fun _ => ?_
  unfold ofTerms
  by_cases hphrases : terms.phrases = []
  · simp only [hphrases, if_true, List.any_eq_true, occursIn_iff]
  · simp only [hphrases, if_false]
    by_cases hlong : 2 ≤ terms.phrases.length
    · simp only [hlong, if_true, List.all_eq_true, occursIn_iff]
    · -- a single phrase: any of them is all of them
      obtain ⟨phrase, more, hcons⟩ := List.exists_cons_of_ne_nil hphrases
      have hmore : more = [] := by
        rw [hcons, List.length_cons] at hlong
        exact List.eq_nil_of_length_eq_zero (by omega)
      simp [hcons, hmore, occursIn_iff]

end Expression

/-! ## §2 Ranking -/

/-- Sorting loses nothing and adds nothing. -/
theorem Ranking.sorted_perm {α : Type} (score : α → Float) (items : List α) :
    (sorted score items).Perm items := by
  have hperm := (List.mergeSort_perm (items.map fun a => (score a, a)) fun a b =>
    decide (a.1 ≤ b.1)).map Prod.snd
  rw [List.map_map] at hperm
  exact hperm.trans (List.Perm.of_eq (List.map_id' items))

namespace Collection

theorem select_perm (c : Collection) (terms : Terms) :
    (c.select (.ofTerms terms)).Perm (c.filter terms.Matches) := by
  -- the records are picked before they are ranked
  have hfilter : (c.filter fun r => (Expression.ofTerms terms).holds r.tokens) =
      c.filter terms.Matches := by
    refine List.filter_congr fun r _ => ?_
    rw [Bool.eq_iff_iff, decide_eq_true_eq]
    exact Expression.holds_ofTerms_iff
  rw [← hfilter]
  exact Ranking.sorted_perm _ _

/-! ## §3 Searching -/

/-- A query with an expression that is not too deep selects the records that match; a deeper one
fails. -/
theorem search_of_ofQuery {query : String} {e : Expression} (h : Expression.ofQuery query = .ok e)
    (hnul : Char.ofNat 0 ∉ query.toList) (c : Collection) :
    c.search query =
      if e.depth ≤ Expression.depthLimit then .ok (c.select e) else .error .database := by
  have hread := (Expression.read?_of_ofQuery h hnul).2
  rw [search, expressionOf, h]
  simp only [bind, Except.bind, hread]
  split <;> rfl

/-- A search succeeds when no text that is searched for has a NUL and the expression is not too
deep, and then it selects the records. -/
theorem search_eq_ok_iff {query : String} {e : Expression} (h : Expression.ofQuery query = .ok e)
    {c found : Collection} :
    c.search query = .ok found ↔ (∀ s ∈ e.texts, Char.ofNat 0 ∉ s.toList) ∧
      e.depth ≤ Expression.depthLimit ∧ c.select e = found := by
  obtain ⟨hne, rfl⟩ := Expression.ofQuery_eq_ok_iff.mp h
  rw [search, expressionOf, h]
  by_cases hnul : ∀ s ∈ (Expression.ofTerms (Terms.ofText (Text.trim query))).texts,
      Char.ofNat 0 ∉ s.toList
  · have hread := Expression.read?_text hne Expression.junction_ofTerms_of_short hnul
    rw [and_iff_right hnul]
    simp only [bind, Except.bind, hread]
    split
    · next hdepth => simp [Except.map, hdepth]
    · next hdepth => simp [Except.map, hdepth]
  · -- what is evaluated is cut off at the NUL and does not read
    have hread : Expression.read? (Expression.ofTerms (Terms.ofText (Text.trim query))).text =
        none := by
      apply Expression.read?_text_of_nul hne
      simpa using hnul
    rw [iff_false_right fun h => hnul h.1]
    simp [bind, Except.bind, hread, Except.map]

/-- What a search finds is in the collection. -/
theorem mem_of_search {c found : Collection} {query : String} (h : c.search query = .ok found)
    {r : CatalogRecord} (hr : r ∈ found) : r ∈ c := by
  unfold search at h
  cases he : expressionOf query with
  | error fault =>
    rw [he] at h
    cases h
  | ok e =>
    rw [he] at h
    cases h
    exact (List.mem_filter.mp ((Ranking.sorted_perm _ _).mem_iff.mp hr)).1

end Collection

end MetadataCatalog
