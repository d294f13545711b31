import MetadataCatalog.Sheet.Grid
import Mathlib.Data.List.DropRight

/-!
# Tables of grids

What a table is made of, and the rows of a grid as a spreadsheet application shows them. A table of
a grid is made of the shown rows from the first used one on (`Grid.tableOf_eq`).
-/

namespace MetadataCatalog

/-! ## §1 Rows of a table -/

namespace Table

theorem foldl_max_le_iff {rows : List (List Cell)} {start width : Nat} :
    rows.foldl (fun width row => max width row.length) start ≤ width ↔
      start ≤ width ∧ ∀ row ∈ rows, row.length ≤ width := by
  induction rows generalizing start with
  | nil => simp
  | cons row rest ih =>
    rw [List.foldl_cons, ih, Nat.max_le, List.forall_mem_cons, and_assoc]

/-- A width is enough for the widest row when it is enough for every row. -/
theorem widest_le_iff {rows : List (List Cell)} {width : Nat} :
    widest rows ≤ width ↔ ∀ row ∈ rows, row.length ≤ width := by
  simp [widest, foldl_max_le_iff]

theorem length_le_widest {rows : List (List Cell)} {row : List Cell} (h : row ∈ rows) :
    row.length ≤ widest rows :=
  widest_le_iff.mp (Nat.le_refl _) row h

/-- Where there are rows, one of them is as wide as the widest. -/
theorem exists_length_eq_widest {rows : List (List Cell)} (hne : rows ≠ []) :
    ∃ row ∈ rows, row.length = widest rows := by
  obtain ⟨first, hfirst⟩ := List.exists_mem_of_ne_nil rows hne
  by_contra hnone
  have hlt : ∀ row ∈ rows, row.length < widest rows := fun row hrow =>
    Nat.lt_of_le_of_ne (length_le_widest hrow) fun heq => hnone ⟨row, hrow, heq⟩
  -- one column less would be enough for all rows
  have hless : widest rows ≤ widest rows - 1 :=
    widest_le_iff.mpr fun row hrow => Nat.le_sub_one_of_lt (hlt row hrow)
  have hpos := hlt first hfirst
  omega

theorem length_headersOf (width : Nat) (header : List Cell) :
    (headersOf width header).length = width := by
  rw [headersOf, List.length_map, List.length_range]

theorem width_ofRowsAt (raw : List (List Cell)) (headerRow : Nat) :
    (ofRowsAt raw headerRow).width = widest raw :=
  length_headersOf _ _

/-- Nothing is cut off a row that is no longer than the width. -/
theorem padded_of_length_le {width : Nat} {row : List Cell} (h : row.length ≤ width) :
    padded width row = row ++ List.replicate (width - row.length) none := by
  rw [padded, List.take_of_length_le h]

theorem dropBlankEnd_isPrefix (rows : List (List Cell)) : dropBlankEnd rows <+: rows :=
  List.rdropWhile_prefix isBlankRow rows

/-- All data rows are as wide as the table. -/
theorem length_of_mem_rows {raw : List (List Cell)} {headerRow : Nat} {row : List Cell}
    (h : row ∈ (ofRowsAt raw headerRow).rows) :
    row.length = (ofRowsAt raw headerRow).width := by
  obtain ⟨cells, -, rfl⟩ := List.mem_map.mp ((dropBlankEnd_isPrefix _).mem h)
  rw [width_ofRowsAt, padded, List.length_append, List.length_take, List.length_replicate]
  omega

/-- A data row is a raw row below the first, made as wide as the table. -/
theorem exists_raw_of_row {raw : List (List Cell)} {headerRow i : Nat}
    (h : i < (ofRowsAt raw headerRow).rows.length) :
    ∃ cells, raw[i + 1]? = some cells ∧
      (ofRowsAt raw headerRow).rows[i]? = some (padded (ofRowsAt raw headerRow).width cells) := by
  -- only rows at the end are left out, so the others keep their places
  have hrow : (raw.tail.map (padded (widest raw)))[i]? = some (ofRowsAt raw headerRow).rows[i] :=
    List.prefix_iff_getElem?.mp (dropBlankEnd_isPrefix _) i h
  rw [List.getElem?_map, List.getElem?_tail] at hrow
  obtain ⟨cells, hcells, heq⟩ := Option.map_eq_some_iff.mp hrow
  refine ⟨cells, hcells, ?_⟩
  rw [List.getElem?_eq_getElem h, ← heq, width_ofRowsAt]

/-- Padding changes no cell within the width. -/
theorem cellAt_padded {width column : Nat} (h : column < width) (row : List Cell) :
    cellAt (padded width row) column = cellAt row column := by
  unfold cellAt padded
  -- beyond the end of the row there is no cell, or an empty one
  by_cases hrow : column < row.length
  · rw [List.getElem?_append_left (by simp; omega), List.getElem?_take_of_lt h]
  · rw [List.getElem?_append_right (by simp; omega), List.getElem?_eq_none (Nat.not_lt.mp hrow),
      List.getElem?_replicate]
    split <;> rfl

end Table

/-! ## §2 Shown rows of a grid -/

namespace Grid

/-- One more than the largest number, and zero if there is none. -/
def extent : List Nat → Nat
  | [] => 0
  | n :: ns => max (n + 1) (extent ns)

theorem extent_cons_eq_foldl (n : Nat) (ns : List Nat) : extent (n :: ns) = ns.foldl max n + 1 := by
  induction ns generalizing n with
  | nil => simp [extent]
  | cons m rest ih =>
    rw [List.foldl_cons, ← ih]
    simp only [extent]
    omega

theorem lt_extent {n : Nat} {ns : List Nat} (h : n ∈ ns) : n < extent ns := by
  induction ns with
  | nil => cases h
  | cons m rest ih =>
    rw [extent]
    rcases List.mem_cons.mp h with rfl | hrest
    · omega
    · have := ih hrest
      omega

theorem extent_le {m : Nat} {ns : List Nat} (h : ∀ n ∈ ns, n < m) : extent ns ≤ m := by
  induction ns with
  | nil => exact Nat.zero_le m
  | cons n rest ih =>
    have hn := h n List.mem_cons_self
    have hrest := ih fun k hk => h k (List.mem_cons_of_mem _ hk)
    rw [extent]
    omega

/-- The rows of a sheet from its top to the last used cell, each from the left edge of the sheet to
the rightmost used column. -/
def shownRows (cells : List Placed) : List (List Cell) :=
  (List.range (extent (cells.map Placed.row))).map fun i =>
    (List.range (extent (cells.map Placed.column))).map (cellOf cells i)

/-- The first row with a used cell. -/
def topRow (cells : List Placed) : Nat :=
  match cells.map Placed.row with
  | row :: rows => rows.foldl min row
  | [] => 0

theorem foldl_min_le {ns : List Nat} {first n : Nat} (h : first ≤ n ∨ n ∈ ns) :
    ns.foldl min first ≤ n := by
  induction ns generalizing first with
  | nil => exact h.resolve_right List.not_mem_nil
  | cons m rest ih =>
    rw [List.foldl_cons]
    rcases h with hfirst | hmem
    · exact ih (Or.inl (Nat.le_trans (Nat.min_le_left first m) hfirst))
    · rcases List.mem_cons.mp hmem with rfl | hrest
      · exact ih (Or.inl (Nat.min_le_right first n))
      · exact ih (Or.inr hrest)

theorem topRow_le {p : Placed} {cells : List Placed} (h : p ∈ cells) : topRow cells ≤ p.row := by
  have hmem : p.row ∈ cells.map Placed.row := List.mem_map_of_mem h
  unfold topRow
  cases hrows : cells.map Placed.row with
  | nil => exact Nat.zero_le _
  | cons row rest =>
    rw [hrows] at hmem
    exact foldl_min_le ((List.mem_cons.mp hmem).imp_left fun heq => Nat.le_of_eq heq.symm)

theorem drop_range (n k : Nat) :
    (List.range n).drop k = (List.range (n - k)).map (k + ·) := by
  rw [List.range_eq_range', List.drop_range', List.range'_eq_map_range]
  simp

/-- The table of a grid is made of the shown rows from the first used one on. -/
theorem tableOf_eq (cells : List Placed) :
    tableOf cells = Table.ofRowsAt ((shownRows cells).drop (topRow cells)) (topRow cells + 1) := by
  unfold tableOf shownRows topRow
  cases cells with
  | nil => rfl
  | cons p rest =>
    simp only [List.map_cons, extent_cons_eq_foldl, ← List.map_drop, drop_range, List.map_map]
    rfl

/-- Every shown row has a cell in the rightmost used column. -/
theorem ne_nil_of_mem_shownRows {cells : List Placed} {row : List Cell}
    (h : row ∈ shownRows cells) : row ≠ [] := by
  obtain ⟨i, hi, rfl⟩ := List.mem_map.mp h
  cases cells with
  | nil => simp [extent] at hi
  | cons p rest => simp [extent]

/-- The grid with the given texts from its top left corner on; nothing is stored for an empty
text. -/
def ofTexts (rows : List (List String)) : Grid :=
  rows.zipIdx.flatMap fun (row, i) =>
    row.zipIdx.filterMap fun (s, j) => if s = "" then none else some ⟨i, j, .text, s⟩

end Grid

end MetadataCatalog
