import MetadataCatalog.Text.Blank
import MetadataCatalog.Text.Pieces
import Mathlib.Data.List.DropRight

/-!
# Trimming and cutting

A trimmed character sequence neither begins nor ends with a blank, and one that does neither is
trimmed already (`trimChars_eq_self_iff`). A sequence without the separating character is a piece by
itself (`pieces_of_not_mem`), and a piece in front of a separator is cut off as it is
(`pieces_append`).
-/

namespace MetadataCatalog.Text

/-! ## §1 Trimming -/

theorem trimChars_eq_rdropWhile (cs : List Char) :
    trimChars cs = (cs.dropWhile isBlank).rdropWhile isBlank := rfl

/-- What is trimmed stands in the sequence as it is. -/
theorem trimChars_infix (cs : List Char) : trimChars cs <:+: cs :=
  (List.rdropWhile_prefix isBlank _).isInfix.trans (List.dropWhile_suffix isBlank).isInfix

theorem isBlank_head?_trimChars {cs : List Char} {c : Char} (h : (trimChars cs).head? = some c) :
    isBlank c = false := by
  -- the beginning of what is left in front is also the beginning of the whole
  obtain ⟨more, hmore⟩ := List.rdropWhile_prefix isBlank (cs.dropWhile isBlank)
  have hhead : (cs.dropWhile isBlank).head? = some c := by
    rw [← hmore, ← trimChars_eq_rdropWhile, List.head?_append, h]
    rfl
  have hnot := List.head?_dropWhile_not isBlank cs
  rw [hhead] at hnot
  exact hnot

theorem isBlank_getLast?_trimChars {cs : List Char} {c : Char}
    (h : (trimChars cs).getLast? = some c) : isBlank c = false := by
  rw [trimChars, List.getLast?_reverse] at h
  have hnot := List.head?_dropWhile_not isBlank (cs.dropWhile isBlank).reverse
  rw [h] at hnot
  exact hnot

/-- A sequence is trimmed if no blank begins or ends it. -/
theorem trimChars_eq_self_iff {cs : List Char} :
    trimChars cs = cs ↔ (∀ c, cs.head? = some c → isBlank c = false) ∧
      ∀ c, cs.getLast? = some c → isBlank c = false := by
  constructor
  · intro h
    rw [← h]
    exact ⟨fun _ => isBlank_head?_trimChars, fun _ => isBlank_getLast?_trimChars⟩
  · intro ⟨hhead, hlast⟩
    have hfront : cs.dropWhile isBlank = cs := by
      rw [List.dropWhile_eq_self_iff]
      intro hlen
      have := hhead cs[0] (by rw [List.head?_eq_getElem?, List.getElem?_eq_getElem hlen])
      simp [this]
    rw [trimChars_eq_rdropWhile, hfront, List.rdropWhile_eq_self_iff]
    intro hne
    have := hlast (cs.getLast hne) (List.getLast?_eq_getLast_of_ne_nil hne)
    simp [this]

theorem trimChars_trimChars (cs : List Char) : trimChars (trimChars cs) = trimChars cs :=
  trimChars_eq_self_iff.mpr ⟨fun _ => isBlank_head?_trimChars, fun _ => isBlank_getLast?_trimChars⟩

/-- Blanks at the end are trimmed away. -/
theorem trimChars_append_blanks (cs : List Char) {blanks : List Char}
    (h : blanks.all isBlank = true) : trimChars (cs ++ blanks) = trimChars cs := by
  rw [List.all_eq_true] at h
  have hback : ∀ front : List Char, (front ++ blanks).reverse.dropWhile isBlank =
      front.reverse.dropWhile isBlank := by
    intro front
    rw [List.reverse_append]
    apply List.dropWhile_append_of_pos
    exact fun c hc => h c (List.mem_reverse.mp hc)
  unfold trimChars
  rw [List.dropWhile_append]
  split
  · next hnil =>
    rw [List.isEmpty_iff] at hnil
    rw [hnil, List.dropWhile_eq_nil_iff.mpr h]
  · rw [hback]

/-- What is trimmed away are blanks on either side. -/
theorem exists_blanks_trimChars (cs : List Char) : ∃ front back, front.all isBlank = true ∧
    back.all isBlank = true ∧ cs = front ++ (trimChars cs ++ back) := by
  refine ⟨cs.takeWhile isBlank, ((cs.dropWhile isBlank).reverse.takeWhile isBlank).reverse,
    List.all_takeWhile, ?_, ?_⟩
  · rw [List.all_reverse]
    exact List.all_takeWhile
  · rw [trimChars, ← List.reverse_append, List.takeWhile_append_dropWhile, List.reverse_reverse,
      List.takeWhile_append_dropWhile]

/-- Nothing is left of blanks, and something of everything else. -/
theorem trimChars_eq_nil_iff {cs : List Char} : trimChars cs = [] ↔ cs.all isBlank = true := by
  rw [trimChars_eq_rdropWhile, List.rdropWhile_eq_nil_iff, List.all_eq_true]
  constructor
  · intro h
    rw [← List.dropWhile_eq_nil_iff]
    -- if anything were left in front, its first character would be a blank
    cases hcs : cs.dropWhile isBlank with
    | nil => rfl
    | cons c rest =>
      have hnot := List.head?_dropWhile_not isBlank cs
      rw [hcs] at hnot h
      simp [h c List.mem_cons_self] at hnot
  · intro h c hc
    exact h c ((List.dropWhile_sublist isBlank).mem hc)

/-- Nothing is left of a blank text, and something of every other. -/
theorem trim_eq_empty_iff {s : String} : trim s = "" ↔ isBlankText s = true := by
  rw [isBlankText, ← trimChars_eq_nil_iff, trim, ← String.toList_eq_nil_iff, String.toList_ofList]

/-- A text without blanks is trimmed. -/
theorem trim_eq_self_of_no_blank {s : String} (h : ∀ c ∈ s.toList, isBlank c = false) :
    trim s = s := by
  have hchars : trimChars s.toList = s.toList :=
    trimChars_eq_self_iff.mpr ⟨fun c hc => h c (List.mem_of_head? hc),
      fun c hc => h c (List.mem_of_getLast? hc)⟩
  rw [trim, hchars, String.ofList_toList]

/-- Blanks in front are trimmed away, too. -/
theorem trimChars_blanks_append {blanks : List Char} (h : blanks.all isBlank = true)
    (cs : List Char) : trimChars (blanks ++ cs) = trimChars cs := by
  unfold trimChars
  rw [List.dropWhile_append_of_pos (List.all_eq_true.mp h)]

/-! ### Blanks inside -/

theorem dropWhile_append_of_not_all {p : Char → Bool} {cs : List Char} (h : ¬ cs.all p = true)
    (ds : List Char) : (cs ++ ds).dropWhile p = cs.dropWhile p ++ ds := by
  have hne : cs.dropWhile p ≠ [] := fun hnil =>
    h (List.all_eq_true.mpr (List.dropWhile_eq_nil_iff.mp hnil))
  rw [List.dropWhile_append, if_neg (by simpa using hne)]

/-- Between characters that are no blanks nothing is trimmed away. -/
theorem trimChars_append_append {front back : List Char} (hfront : ¬ front.all isBlank = true)
    (hback : ¬ back.all isBlank = true) (cs : List Char) :
    trimChars (front ++ cs ++ back) = front.dropWhile isBlank ++ cs ++ back.rdropWhile isBlank := by
  have hend : ¬ back.reverse.all isBlank = true := by rwa [List.all_reverse]
  rw [trimChars, List.append_assoc, dropWhile_append_of_not_all hfront, ← List.append_assoc,
    List.reverse_append, dropWhile_append_of_not_all hend, List.reverse_append,
    List.reverse_reverse]
  rfl

theorem all_isBlank_iff_countP {cs : List Char} :
    cs.all isBlank = true ↔ cs.countP (!isBlank ·) = 0 := by
  simp [List.countP_eq_zero]

theorem countP_not_isBlank_trimChars (cs : List Char) :
    (trimChars cs).countP (!isBlank ·) = cs.countP (!isBlank ·) := by
  obtain ⟨front, back, hfront, hback, heq⟩ := exists_blanks_trimChars cs
  conv_rhs => rw [heq, List.countP_append, List.countP_append, all_isBlank_iff_countP.mp hfront,
    all_isBlank_iff_countP.mp hback, Nat.zero_add, Nat.add_zero]

/-- What stands between two parts of a text makes no more difference than blanks do if it is blank
and one of the parts is. -/
theorem trimChars_between_iff {front between others back : List Char}
    (hothers : others.all isBlank = true) :
    trimChars (front ++ between ++ back) = trimChars (front ++ others ++ back) ↔
      between = others ∨
        between.all isBlank = true ∧ (front.all isBlank = true ∨ back.all isBlank = true) := by
  constructor
  · intro heq
    by_cases hsides : front.all isBlank = true ∨ back.all isBlank = true
    · -- both sides have as many characters that are no blanks
      have hcount := congrArg (List.countP (!isBlank ·)) heq
      simp only [countP_not_isBlank_trimChars, List.countP_append] at hcount
      rw [all_isBlank_iff_countP] at hothers
      exact .inr ⟨all_isBlank_iff_countP.mpr (by omega), hsides⟩
    · obtain ⟨hfront, hback⟩ := not_or.mp hsides
      rw [trimChars_append_append hfront hback, trimChars_append_append hfront hback] at heq
      exact .inl (List.append_cancel_left (List.append_cancel_right heq))
  · rintro (rfl | ⟨hbetween, hfront | hback⟩)
    · rfl
    · rw [List.append_assoc, trimChars_blanks_append hfront, trimChars_blanks_append hbetween,
        List.append_assoc, trimChars_blanks_append hfront, trimChars_blanks_append hothers]
    · rw [trimChars_append_blanks _ hback, trimChars_append_blanks _ hbetween,
        trimChars_append_blanks _ hback, trimChars_append_blanks _ hothers]

/-! ## §2 Cutting -/

theorem pieces_of_not_mem {sep : Char} {cs : List Char} (h : sep ∉ cs) : pieces sep cs = [cs] := by
  induction cs with
  | nil => rfl
  | cons c cs ih =>
    have hc : c ≠ sep := fun hc => h (by simp [hc])
    have hrest : sep ∉ cs := fun hmem => h (by simp [hmem])
    rw [pieces, if_neg hc, ih hrest]

theorem pieces_append {sep : Char} {cs : List Char} (h : sep ∉ cs) (rest : List Char) :
    pieces sep (cs ++ sep :: rest) = cs :: pieces sep rest := by
  induction cs with
  | nil => simp [pieces]
  | cons c cs ih =>
    have hc : c ≠ sep := fun hc => h (by simp [hc])
    have hrest : sep ∉ cs := fun hmem => h (by simp [hmem])
    rw [List.cons_append, pieces, if_neg hc, ih hrest]

/-- Cutting goes on behind a separator as at the beginning. -/
theorem pieces_append_sep (sep : Char) (cs rest : List Char) :
    pieces sep (cs ++ sep :: rest) = pieces sep cs ++ pieces sep rest := by
  induction cs with
  | nil => simp [pieces]
  | cons c cs ih =>
    simp only [List.cons_append, pieces, ih]
    by_cases hc : c = sep
    · simp [hc]
    · cases hpieces : pieces sep cs with
      | nil => exact absurd hpieces (pieces_ne_nil sep cs)
      | cons piece more => simp [hc]

theorem cut_of_not_mem {sep : Char} {s : String} (h : sep ∉ s.toList) : cut sep s = [s] := by
  rw [cut, pieces_of_not_mem h, List.map_singleton, String.ofList_toList]

theorem cut_append_sep (sep : Char) (s rest : String) :
    cut sep (s ++ String.singleton sep ++ rest) = cut sep s ++ cut sep rest := by
  have hchars : (s ++ String.singleton sep ++ rest).toList = s.toList ++ sep :: rest.toList := by
    simp
  rw [cut, hchars, pieces_append_sep, List.map_append]
  rfl

/-- What has been cut is put together again. -/
theorem intercalate_pieces (sep : Char) (cs : List Char) :
    [sep].intercalate (pieces sep cs) = cs := by
  induction cs with
  | nil => simp [pieces]
  | cons c cs ih =>
    rw [pieces]
    cases hpieces : pieces sep cs with
    | nil => exact absurd hpieces (pieces_ne_nil sep cs)
    | cons piece more =>
      rw [hpieces] at ih
      by_cases hc : c = sep
      · simp [hc, ih]
      · cases more <;> simp_all

/-- Texts that were cut are joined again. -/
theorem join_cut (sep : Char) (s : String) : join (String.singleton sep) (cut sep s) = s := by
  rw [← String.toList_inj, join, String.toList_intercalate, cut, List.map_map]
  have hsame : String.toList ∘ String.ofList = id := by
    funext cs
    exact String.toList_ofList
  rw [hsame, List.map_id, String.toList_singleton, intercalate_pieces]

end MetadataCatalog.Text
