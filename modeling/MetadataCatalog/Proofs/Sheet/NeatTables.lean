import MetadataCatalog.Proofs.Json.Numerals
import MetadataCatalog.Proofs.Text.Trimming
import MetadataCatalog.Sheet.Workbook

/-!
# Neat tables

A text is neat when something stands in it and no blank begins or ends it. Whatever a sheet holds at
a position, a text, a number, a date or a field of a CSV record, its cell is empty or neat
(`Cell.isNeat_ofDatum`). A blank header cell gets a neat name, so every text in a table that is read
from a workbook is neat (`Workbook.isNeat_of_sheet`).
-/

namespace MetadataCatalog

/-! ## §1 Texts -/

namespace Text

/-- There is something in the text, and no blank begins or ends it. -/
structure IsNeat (s : String) : Prop where
  ne_empty : s ≠ ""
  head : ∀ c, s.toList.head? = some c → isBlank c = false
  last : ∀ c, s.toList.getLast? = some c → isBlank c = false

instance (s : String) : Decidable (IsNeat s) :=
  decidable_of_iff
    (s ≠ "" ∧ s.toList.head?.all (!isBlank ·) = true ∧ s.toList.getLast?.all (!isBlank ·) = true)
    ⟨fun ⟨hne, hhead, hlast⟩ =>
      ⟨hne, by simpa [Option.all_eq_true] using hhead, by simpa [Option.all_eq_true] using hlast⟩,
      fun ⟨hne, hhead, hlast⟩ =>
      ⟨hne, by simpa [Option.all_eq_true] using hhead, by simpa [Option.all_eq_true] using hlast⟩⟩

theorem isNeat_trim {s : String} (h : trim s ≠ "") : IsNeat (trim s) where
  ne_empty := h
  head c hc := by
    rw [trim, String.toList_ofList] at hc
    exact isBlank_head?_trimChars hc
  last c hc := by
    rw [trim, String.toList_ofList] at hc
    exact isBlank_getLast?_trimChars hc

/-- Whether a fixed list has blanks can be looked up. -/
theorem isBlank_of_all {cs : List Char} (h : cs.all (!isBlank ·) = true) :
    ∀ c ∈ cs, isBlank c = false := by
  simpa [List.all_eq_true] using h

/-- A text of characters of which none is blank. -/
theorem isNeat_ofList {cs : List Char} (hne : cs ≠ []) (h : ∀ c ∈ cs, isBlank c = false) :
    IsNeat (String.ofList cs) where
  ne_empty hempty := hne (by simpa using congrArg String.toList hempty)
  head c hc := by
    rw [String.toList_ofList] at hc
    exact h c (List.mem_of_head? hc)
  last c hc := by
    rw [String.toList_ofList] at hc
    exact h c (List.mem_of_getLast? hc)

end Text

/-! ## §2 Numbers -/

namespace Decimal

theorem isBlank_of_isDigit {c : Char} (h : isDigit c = true) : Text.isBlank c = false := by
  simp only [isDigit, Bool.and_eq_true, decide_eq_true_eq] at h
  simp only [Text.isBlank, Bool.or_eq_false_iff, Bool.and_eq_false_iff, decide_eq_false_iff_not,
    beq_eq_false_iff_ne]
  omega

theorem isBlank_of_mem_natChars {n : Nat} {c : Char} (h : c ∈ natChars n) :
    Text.isBlank c = false :=
  isBlank_of_isDigit (isDigit_of_mem_natChars h)

theorem isNeat_intText (n : Int) : Text.IsNeat (intText n) := by
  refine Text.isNeat_ofList (intChars_ne_nil n) fun c hc => ?_
  cases n with
  | ofNat n => exact isBlank_of_mem_natChars hc
  | negSucc n =>
    rcases List.mem_cons.mp hc with rfl | hc
    · decide
    · exact isBlank_of_mem_natChars hc

namespace Layout

/-- Digits with a point among, before or behind them. -/
theorem isBlank_of_mem_point {digits : List Char} (h : ∀ c ∈ digits, Text.isBlank c = false)
    (p : Int) : ∀ c ∈ plain.point digits p, Text.isBlank c = false := by
  have hzeros (n : Nat) : ∀ c ∈ List.replicate n '0', Text.isBlank c = false := by
    intro c hc
    rw [List.eq_of_mem_replicate hc]
    decide
  -- the point stands before all digits, among them, or behind them
  unfold point
  split
  · rw [List.forall_mem_append, List.forall_mem_append]
    exact ⟨⟨Text.isBlank_of_all (by decide), hzeros _⟩, h⟩
  · split
    · rw [List.forall_mem_append, List.forall_mem_append]
      exact ⟨⟨fun c hc => h c (List.mem_of_mem_take hc), Text.isBlank_of_all (by decide)⟩,
        fun c hc => h c (List.mem_of_mem_drop hc)⟩
    · rw [List.forall_mem_append, List.forall_mem_append]
      exact ⟨⟨h, hzeros _⟩, Text.isBlank_of_all (by decide)⟩

theorem point_ne_nil {digits : List Char} (h : digits ≠ []) (layout : Layout) (p : Int) :
    layout.point digits p ≠ [] := by
  unfold point
  split
  · simp
  · split <;> simp [h]

/-- No double is written with blanks, or with nothing. -/
theorem isNeat_write_plain (x : Float) : Text.IsNeat (String.ofList (plain.write x)) := by
  have hsign (negative : Bool) :
      ∀ c ∈ (if negative then ['-'] else [] : List Char), Text.isBlank c = false := by
    cases negative <;> exact Text.isBlank_of_all (by decide)
  have hscaled (d : Scaled) : plain.scaled d =
      plain.point (natChars d.digits) ((natChars d.digits).length + d.exponent) := rfl
  unfold write
  split
  · exact Text.isNeat_ofList (by decide) (Text.isBlank_of_all (by decide))
  · refine Text.isNeat_ofList (by simp) (List.forall_mem_append.mpr ⟨hsign _, ?_⟩)
    exact Text.isBlank_of_all (by decide)
  · dsimp only
    split
    · refine Text.isNeat_ofList (by simp) ?_
      rw [List.forall_mem_append, List.forall_mem_append]
      exact ⟨⟨hsign _, Text.isBlank_of_all (by decide)⟩, Text.isBlank_of_all (by decide)⟩
    · rw [hscaled]
      refine Text.isNeat_ofList ?_ (List.forall_mem_append.mpr ⟨hsign _, ?_⟩)
      · exact List.append_ne_nil_of_right_ne_nil _ (point_ne_nil (natChars_ne_nil _) _ _)
      · exact isBlank_of_mem_point (fun _ => isBlank_of_mem_natChars) _

end Layout

end Decimal

/-! ## §3 Cells -/

namespace Cell

/-- The cell is empty, or its text is neat. -/
def IsNeat (cell : Cell) : Prop :=
  ∀ s, cell = some s → Text.IsNeat s

theorem isNeat_none : IsNeat none :=
  fun _ h => nomatch h

theorem isNeat_some {s : String} (h : Text.IsNeat s) : IsNeat (some s) := by
  rintro _ ⟨⟩
  exact h

theorem isNeat_ofText (s : String) : IsNeat (ofText s) := by
  simp only [ofText]
  split
  · exact isNeat_none
  · exact isNeat_some (Text.isNeat_trim ‹_›)

theorem isNeat_numberText (x : Float) : Text.IsNeat (numberText x) := by
  unfold numberText
  dsimp only
  split
  · split
    · split
      · exact Decimal.isNeat_intText _
      · exact Decimal.Layout.isNeat_write_plain x
    · exact Decimal.Layout.isNeat_write_plain x
  · exact Decimal.Layout.isNeat_write_plain x

/-- **Whatever a spreadsheet holds** at a position, its cell is empty or neat. -/
theorem isNeat_ofDatum (datum : Datum) : IsNeat (ofDatum datum) := by
  cases datum with
  | empty => exact isNeat_none
  | text s => exact isNeat_ofText s
  | integer n => exact isNeat_some (Decimal.isNeat_intText n)
  | number x => exact isNeat_some (isNeat_numberText x)
  | boolean b => exact isNeat_some (by cases b <;> decide)
  | error => exact isNeat_none
  | moment serial => exact isNeat_ofText (String.ofList (Decimal.Layout.plain.write serial))
  | stamp s => exact isNeat_ofText s

end Cell

/-- A cell of a row of neat cells, also beyond the end of the row. -/
theorem isNeat_cellAt {row : List Cell} (h : ∀ cell ∈ row, cell.IsNeat) (column : Nat) :
    (cellAt row column).IsNeat := by
  unfold cellAt
  cases hcell : row[column]? with
  | none => exact Cell.isNeat_none
  | some cell => exact h cell (List.mem_of_getElem? hcell)

/-! ## §4 Tables -/

namespace Table

/-- Every header is neat, and every cell empty or neat. -/
structure IsNeat (t : Table) : Prop where
  headers : ∀ header ∈ t.headers, Text.IsNeat header
  cells : ∀ row ∈ t.rows, ∀ cell ∈ row, Cell.IsNeat cell

theorem isNeat_generatedHeader (j : Nat) : Text.IsNeat (generatedHeader j) := by
  have hchars : generatedHeader j = String.ofList ("col_".toList ++ Decimal.natChars j) := by
    rw [generatedHeader, Decimal.natText, String.ofList_append, String.ofList_toList]
  rw [hchars]
  exact Text.isNeat_ofList (by simp) (List.forall_mem_append.mpr
    ⟨Text.isBlank_of_all (by decide), fun _ => Decimal.isBlank_of_mem_natChars⟩)

/-- **A table** of neat cells is neat: a blank header gets a neat name, and a short row more empty
cells. -/
theorem isNeat_ofRowsAt {raw : List (List Cell)} (h : ∀ row ∈ raw, ∀ cell ∈ row, Cell.IsNeat cell)
    (headerRow : Nat) : (ofRowsAt raw headerRow).IsNeat where
  headers header hheader := by
    obtain ⟨j, -, rfl⟩ := List.mem_map.mp hheader
    have hrow : ∀ cell ∈ raw.headD [], Cell.IsNeat cell := by
      cases raw with
      | nil => exact fun _ hcell => absurd hcell List.not_mem_nil
      | cons row rest => exact h row List.mem_cons_self
    cases hcell : (((raw.headD [])[j]?).join : Cell) with
    | none => exact isNeat_generatedHeader j
    | some s => exact isNeat_cellAt hrow j s hcell
  cells row hrow cell hcell := by
    have hrow : row ∈ raw.tail.map (padded (widest raw)) :=
      List.mem_reverse.mp ((List.dropWhile_sublist _).subset (List.mem_reverse.mp hrow))
    obtain ⟨short, hshort, rfl⟩ := List.mem_map.mp hrow
    rcases List.mem_append.mp hcell with hcell | hcell
    · exact h short (List.mem_of_mem_tail hshort) cell (List.mem_of_mem_take hcell)
    · rw [List.eq_of_mem_replicate hcell]
      exact Cell.isNeat_none

end Table

/-- What a list of images holds is the image of something. -/
theorem exists_of_mem_mapM {α β : Type} {f : α → Option β} {items : List α} {images : List β}
    (h : items.mapM f = some images) {b : β} (hb : b ∈ images) : ∃ a ∈ items, f a = some b := by
  induction items generalizing images with
  | nil =>
    cases h
    exact absurd hb List.not_mem_nil
  | cons a rest ih =>
    rw [List.mapM_cons] at h
    obtain ⟨first, hfirst, h⟩ := Option.bind_eq_some_iff.mp h
    obtain ⟨more, hmore, h⟩ := Option.bind_eq_some_iff.mp h
    cases h
    rcases List.mem_cons.mp hb with rfl | hb
    · exact ⟨a, List.mem_cons_self, hfirst⟩
    · obtain ⟨other, hother, heq⟩ := ih hmore hb
      exact ⟨other, List.mem_cons_of_mem _ hother, heq⟩

/-- The table of a grid is neat. -/
theorem Grid.isNeat_of_table? {g : Grid} {t : Table} (h : g.table? = some t) : t.IsNeat := by
  obtain ⟨used, hused, rfl⟩ := Option.map_eq_some_iff.mp h
  have hplaced : ∀ p ∈ used, p.cell.IsNeat := by
    intro p hp
    obtain ⟨s, -, hs⟩ := exists_of_mem_mapM hused hp
    obtain ⟨datum, -, rfl⟩ := Option.map_eq_some_iff.mp hs
    exact Cell.isNeat_ofDatum datum
  have hcell (i j : Nat) : (cellOf used i j).IsNeat := by
    unfold cellOf
    cases hfind : used.reverse.find? fun p => p.row = i ∧ p.column = j with
    | none => exact Cell.isNeat_none
    | some p => exact hplaced p (List.mem_reverse.mp (List.mem_of_find?_eq_some hfind))
  unfold tableOf
  split
  · refine Table.isNeat_ofRowsAt (fun row hrow cell hmem => ?_) _
    obtain ⟨i, -, rfl⟩ := List.mem_map.mp hrow
    obtain ⟨j, -, rfl⟩ := List.mem_map.mp hmem
    exact hcell _ j
  · exact Table.isNeat_ofRowsAt (fun row hrow => absurd hrow List.not_mem_nil) _

namespace Workbook

/-- **A table that is read** from a workbook, a spreadsheet or a folder, is neat. -/
theorem isNeat_of_sheet {tree : Files} {w : Workbook} {name : String} {t : Table}
    (h : w.sheet tree name = .ok t) : t.IsNeat := by
  obtain ⟨available, -, h⟩ := exists_of_bind_eq_ok h
  have htable : w.table? tree name = some t := by
    split at h
    · cases h
    · split at h
      · cases h
        assumption
      · cases h
  cases w with
  | spreadsheet path place sheets =>
    simp only [table?, Option.ite_none_right_eq_some, Option.bind_eq_some_iff] at htable
    obtain ⟨-, entry, -, hgrid⟩ := htable
    exact Grid.isNeat_of_table? hgrid
  | folder path =>
    obtain ⟨records, -, rfl⟩ := Option.map_eq_some_iff.mp htable
    refine Table.isNeat_ofRowsAt (fun row hrow cell hcell => ?_) 1
    obtain ⟨record, -, rfl⟩ := List.mem_map.mp hrow
    obtain ⟨field, -, rfl⟩ := List.mem_map.mp hcell
    exact Cell.isNeat_ofText field

end Workbook

end MetadataCatalog
