import MetadataCatalog.Proofs.Catalog.SingleWords

/-!
# Queries in parts

What the terms of a query have to do with its parts and with what is in it.

- **Queries one after the other**: with a blank in between, the terms of a further query come after
  those of the first (`ofChars_append`), and blanks at the ends of a query count for nothing
  (`ofText_trim`).
- **What is in a query**: blanks, quotes and dashes separate what stands between them. What is read
  off a text in such a way, as its tokens are (`separates_tokens`), is in the terms of the query, one
  term after the other (`Separates.exists_row`).
-/

namespace MetadataCatalog

/-! ## §1 Queries one after the other -/

namespace Terms

/-- The terms of two queries, one after the other. -/
def append (terms more : Terms) : Terms :=
  ⟨terms.words ++ more.words, terms.phrases ++ more.phrases, terms.excluded ++ more.excluded⟩

theorem empty_append (terms : Terms) : empty.append terms = terms := rfl

theorem withWord_append (word : List Char) (terms more : Terms) :
    (withWord word terms).append more = withWord word (terms.append more) := by
  unfold withWord
  split <;> rfl

/-- **Queries one after the other.** Behind a query without quotes and a blank, the terms of a
further query come after those of the first. -/
theorem ofChars_append {cs : List Char} (h : '"' ∉ cs) {b : Char} (hb : Text.isBlank b = true)
    (more : List Char) : ofChars (cs ++ b :: more) = (ofChars cs).append (ofChars more) := by
  induction cs using scanInduction with
  | nil => rw [List.nil_append, ofChars_blank hb, ofChars_nil, empty_append]
  | blank c cs hc ih =>
    rw [List.cons_append, ofChars_blank hc, ofChars_blank hc]
    exact ih fun hmem => h (List.mem_cons_of_mem c hmem)
  | unclosed between _ => exact absurd List.mem_cons_self h
  | phrase between rest _ _ => exact absurd List.mem_cons_self h
  | word c word rest hc hquote hword hrest ih =>
    -- the word ends where it did, at the latest at the blank between the queries
    have hmore : Breaks (rest ++ b :: more) := hrest.append (breaks_cons hb more)
    rw [List.cons_append, List.append_assoc, ofChars_word hc hquote hword hmore,
      ofChars_word hc hquote hword hrest, withWord_append]
    rw [ih fun hmem => h (List.mem_cons_of_mem c (List.mem_append_right word hmem))]

/-- Blanks at the end of a query count for nothing. -/
theorem ofChars_append_blanks (cs : List Char) {blanks : List Char}
    (h : blanks.all Text.isBlank = true) : ofChars (cs ++ blanks) = ofChars cs := by
  have hnil : ofChars blanks = empty := by
    rw [← List.append_nil blanks, ofChars_blanks h, ofChars_nil]
  have hquote : '"' ∉ blanks := by
    intro hmem
    have hblank : Text.isBlank '"' = true := List.all_eq_true.mp h _ hmem
    exact absurd hblank (by decide)
  have hbreaks : Breaks blanks := by
    intro b hb
    exact List.all_eq_true.mp h b (List.mem_of_head? hb)
  induction cs using scanInduction with
  | nil => rw [List.nil_append, hnil, ofChars_nil]
  | blank c cs hc ih => rw [List.cons_append, ofChars_blank hc, ofChars_blank hc, ih]
  | unclosed between hbetween =>
    -- the phrase goes on to the end, and is trimmed
    have hall : '"' ∉ between ++ blanks := by simp [hbetween, hquote]
    rw [List.cons_append, ofChars_unclosed hall, ofChars_unclosed hbetween, withPhrase, withPhrase,
      Text.trimChars_append_blanks between h]
  | phrase between rest hbetween ih =>
    rw [List.cons_append, List.append_assoc, List.cons_append, ofChars_phrase hbetween,
      ofChars_phrase hbetween, ih]
  | word c word rest hc hquote hword hrest ih =>
    rw [List.cons_append, List.append_assoc, ofChars_word hc hquote hword (hrest.append hbreaks),
      ofChars_word hc hquote hword hrest, ih]

/-- Trimming changes nothing about the terms of a query. -/
theorem ofText_trim (query : String) : ofText (Text.trim query) = ofText query := by
  obtain ⟨front, back, hfront, hback, hquery⟩ := Text.exists_blanks_trimChars query.toList
  rw [ofText, ofText, Text.trim, String.toList_ofList]
  conv_rhs => rw [hquery, ofChars_blanks hfront, ofChars_append_blanks _ hback]

/-! ## §2 What is in a query -/

/-- Blanks, quotes and dashes. -/
def isSeparator (c : Char) : Bool :=
  Text.isBlank c || c == '"' || c == '-'

/-- What is read off a text such that separators leave nothing, and separate what stands before them
from what stands behind them. -/
structure Separates {β : Type} (f : List Char → List β) : Prop where
  nil : f [] = []
  append : ∀ {c}, isSeparator c = true → ∀ before after,
    f (before ++ c :: after) = f before ++ f after

theorem isSeparator_of_isBlank {c : Char} (h : Text.isBlank c = true) : isSeparator c = true := by
  simp [isSeparator, h]

namespace Separates

variable {β : Type} {f : List Char → List β} (h : Separates f)

include h

theorem cons {c : Char} (hc : isSeparator c = true) (cs : List Char) : f (c :: cs) = f cs := by
  have hone := h.append hc [] cs
  rwa [List.nil_append, h.nil, List.nil_append] at hone

theorem blanks {blanks : List Char} (hblanks : blanks.all Text.isBlank = true) (cs : List Char) :
    f (blanks ++ cs) = f cs := by
  induction blanks with
  | nil => rfl
  | cons b blanks ih =>
    rw [List.all_cons, Bool.and_eq_true] at hblanks
    rw [List.cons_append, h.cons (isSeparator_of_isBlank hblanks.1), ih hblanks.2]

theorem append_breaks (cs : List Char) {rest : List Char} (hrest : Breaks rest) :
    f (cs ++ rest) = f cs ++ f rest := by
  cases rest with
  | nil => rw [List.append_nil, h.nil, List.append_nil]
  | cons b rest =>
    have hb : isSeparator b = true := isSeparator_of_isBlank (hrest b rfl)
    rw [h.append hb, h.cons hb]

theorem trimChars (cs : List Char) : f (Text.trimChars cs) = f cs := by
  obtain ⟨front, back, hfront, hback, hcs⟩ := Text.exists_blanks_trimChars cs
  have hbreaks : Breaks back := by
    intro b hb
    exact List.all_eq_true.mp hback b (List.mem_of_head? hb)
  have hnone : f back = [] := by
    rw [← List.append_nil back, h.blanks hback, h.nil]
  conv_rhs => rw [hcs, h.blanks hfront, h.append_breaks _ hbreaks, hnone, List.append_nil]

/-- Neither the quotes nor the dash of a term count. -/
theorem chars (t : Term) : f t.chars = f t.text.toList := by
  cases t with
  | word s => rfl
  | phrase s =>
    have hend : f (s.toList ++ ['"']) = f s.toList := by
      rw [h.append (by decide), h.nil, List.append_nil]
    rw [Term.chars, h.cons (by decide), hend]
    rfl
  | excluded s => exact h.cons (by decide) s.toList

/-- **What is in a query** is in its terms, one term after the other. -/
theorem exists_row (cs : List Char) : ∃ row, ofRow row = ofChars cs ∧
    f cs = row.flatMap fun t => f t.text.toList := by
  induction cs using scanInduction with
  | nil => exact ⟨[], ofChars_nil.symm, h.nil⟩
  | blank c cs hc ih =>
    rw [ofChars_blank hc, h.cons (isSeparator_of_isBlank hc)]
    exact ih
  | unclosed between hbetween =>
    rw [ofChars_unclosed hbetween, h.cons (by decide), ← h.trimChars]
    rcases withPhrase_eq hbetween empty with ⟨hblank, heq⟩ | ⟨s, -, hs, heq⟩
    · exact ⟨[], heq.symm, by rw [hblank, h.nil]; rfl⟩
    · refine ⟨[.phrase s], heq.symm, ?_⟩
      rw [← hs]
      exact (List.append_nil _).symm
  | phrase between rest hbetween ih =>
    obtain ⟨row, hrow, hf⟩ := ih
    rw [ofChars_phrase hbetween, h.cons (by decide), h.append (by decide), ← h.trimChars between,
      hf]
    -- what stands between the quotes counts as it is trimmed, and not at all if it is blank
    rcases withPhrase_eq hbetween (ofChars rest) with ⟨hblank, heq⟩ | ⟨s, -, hs, heq⟩
    · refine ⟨row, hrow.trans heq.symm, ?_⟩
      rw [hblank, h.nil, List.nil_append]
    · refine ⟨.phrase s :: row, ?_, ?_⟩
      · rw [ofRow_cons, hrow, heq]
      · rw [← hs]
        rfl
  | word c word rest hc hquote hword hrest ih =>
    obtain ⟨row, hrow, hf⟩ := ih
    rw [ofChars_word hc hquote hword hrest, ← List.cons_append, h.append_breaks _ hrest, hf]
    -- a lone dash is no term, and nothing is in it
    rcases withWord_eq hc hquote hword (ofChars rest) with ⟨hdash, heq⟩ | ⟨t, -, ht, heq⟩
    · refine ⟨row, hrow.trans heq.symm, ?_⟩
      rw [hdash, h.cons (by decide), h.nil, List.nil_append]
    · refine ⟨t :: row, ?_, ?_⟩
      · rw [ofRow_cons, hrow, heq]
      · rw [← ht, h.chars t, List.flatMap_cons]

end Separates

theorem mem_all_cons {t : Term} {terms : Terms} {s : String} :
    s ∈ (cons t terms).all ↔ s = t.text ∨ s ∈ terms.all := by
  cases t <;> simp only [cons, all, Term.text, List.mem_append, List.mem_cons] <;> tauto

theorem mem_all_ofRow {row : List Term} {s : String} :
    s ∈ (ofRow row).all ↔ ∃ t ∈ row, t.text = s := by
  induction row with
  | nil => simp [ofRow, empty, all]
  | cons t row ih => rw [ofRow_cons, mem_all_cons, ih, List.exists_mem_cons_iff, eq_comm]

namespace Separates

variable {β : Type} {f : List Char → List β} (h : Separates f)

include h

theorem mem_iff {cs : List Char} {b : β} :
    b ∈ f cs ↔ ∃ s ∈ (ofChars cs).all, b ∈ f s.toList := by
  obtain ⟨row, hrow, hf⟩ := h.exists_row cs
  rw [hf, ← hrow, List.mem_flatMap]
  simp only [mem_all_ofRow]
  constructor
  · rintro ⟨t, ht, hb⟩
    exact ⟨t.text, ⟨t, ht, rfl⟩, hb⟩
  · rintro ⟨_, ⟨t, ht, rfl⟩, hb⟩
    exact ⟨t, ht, hb⟩

theorem infix_of_mem {cs : List Char} {s : String} (hs : s ∈ (ofChars cs).all) :
    f s.toList <:+: f cs := by
  obtain ⟨row, hrow, hf⟩ := h.exists_row cs
  rw [← hrow, mem_all_ofRow] at hs
  obtain ⟨t, ht, rfl⟩ := hs
  obtain ⟨front, back, rfl⟩ := List.append_of_mem ht
  rw [hf, List.flatMap_append, List.flatMap_cons, ← List.append_assoc]
  exact ⟨_, _, rfl⟩

end Separates

/-- Separators are in no word. -/
theorem continues_of_isSeparator {c : Char} (h : isSeparator c = true) :
    Tokens.continues c = false := by
  simp only [isSeparator, Bool.or_eq_true, beq_iff_eq] at h
  rcases h with (hblank | rfl) | rfl
  · have hcodes : (List.range' 0x9 5 ++ List.range' 0x2000 11 ++
        [0x20, 0x85, 0xA0, 0x1680, 0x2028, 0x2029, 0x202F, 0x205F, 0x3000]).all
          (fun n => !Tokens.continues (Char.ofNat n)) = true := by decide +kernel
    have hmem : c.toNat ∈ List.range' 0x9 5 ++ List.range' 0x2000 11 ++
        [0x20, 0x85, 0xA0, 0x1680, 0x2028, 0x2029, 0x202F, 0x205F, 0x3000] := by
      simp only [Text.isBlank, Bool.or_eq_true, Bool.and_eq_true, decide_eq_true_eq,
        beq_iff_eq] at hblank
      simp only [List.mem_append, List.mem_range'_1, List.mem_cons, List.not_mem_nil, or_false]
      omega
    have hone := List.all_eq_true.mp hcodes _ hmem
    rwa [Char.ofNat_toNat, Bool.not_eq_true'] at hone
  · decide +kernel
  · decide +kernel

theorem separates_tokens : Separates Tokens.ofChars where
  nil := by rw [Tokens.ofChars]
  append hc := Tokens.ofChars_append (continues_of_isSeparator hc)

/-- All characters but the separators are in the terms. -/
theorem separates_filter : Separates (List.filter (!isSeparator ·)) where
  nil := rfl
  append hc before after := by rw [List.filter_append, List.filter_cons_of_neg (by simp [hc])]

end Terms

end MetadataCatalog
