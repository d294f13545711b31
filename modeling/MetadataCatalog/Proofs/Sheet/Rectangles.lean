import MetadataCatalog.Proofs.Schema.Widening
import MetadataCatalog.Proofs.Sheet.Grids

/-!
# Rectangles of cells

A table made of a rectangle of cells. Blank rows at the bottom of the rectangle change nothing, and
blank columns at its right edge only widen the table (`Table.ofRowsAt_rectangle`). The rectangle
that a grid of texts is cut to leaves out nothing else (`Grid.Holds.exists_table`).
-/

namespace MetadataCatalog

/-! ## §1 Tables of rectangles -/

/-- The rectangle of so many rows and columns of cells. -/
def rectangle (cell : Nat → Nat → Cell) (height width : Nat) : List (List Cell) :=
  (List.range height).map fun i => (List.range width).map (cell i)

namespace Table

theorem widest_of_length {rows : List (List Cell)} {width : Nat} (hne : rows ≠ [])
    (h : ∀ row ∈ rows, row.length = width) : widest rows = width := by
  obtain ⟨row, hrow, hwidest⟩ := exists_length_eq_widest hne
  exact hwidest.symm.trans (h row hrow)

theorem padded_of_length {width : Nat} {row : List Cell} (h : row.length = width) :
    padded width row = row := by
  simp [padded_of_length_le (Nat.le_of_eq h), h]

theorem dropBlankEnd_append_blank {rows blank : List (List Cell)}
    (h : ∀ row ∈ blank, isBlankRow row = true) :
    dropBlankEnd (rows ++ blank) = dropBlankEnd rows := by
  unfold dropBlankEnd
  rw [List.reverse_append, List.dropWhile_append_of_pos]
  intro row hrow
  exact h row (List.mem_reverse.mp hrow)

theorem dropBlankEnd_map {change : List Cell → List Cell}
    (h : ∀ row, isBlankRow (change row) = isBlankRow row) (rows : List (List Cell)) :
    dropBlankEnd (rows.map change) = (dropBlankEnd rows).map change := by
  have hsame : isBlankRow ∘ change = isBlankRow := funext h
  unfold dropBlankEnd
  rw [← List.map_reverse, List.dropWhile_map, hsame, List.map_reverse]

theorem isBlankRow_append_none (row : List Cell) (k : Nat) :
    isBlankRow (row ++ List.replicate k none) = isBlankRow row := by
  simp [isBlankRow]

/-- The table of a rectangle: generated headers where the first row is empty, and the other rows but
for the blank ones at the end. -/
theorem ofRowsAt_rectangle_eq (cell : Nat → Nat → Cell) {height : Nat} (hheight : 0 < height)
    (width headerRow : Nat) :
    ofRowsAt (rectangle cell height width) headerRow =
      { headers := (List.range width).map fun j => (cell 0 j).getD (generatedHeader j)
        rows := dropBlankEnd
          ((List.range' 1 (height - 1)).map fun i => (List.range width).map (cell i))
        headerRow := max headerRow 1 } := by
  have hlength : ∀ row ∈ rectangle cell height width, row.length = width := by
    intro row hrow
    obtain ⟨i, -, rfl⟩ := List.mem_map.mp hrow
    simp
  obtain ⟨below, rfl⟩ := Nat.exists_eq_add_of_le' hheight
  have hsplit : rectangle cell (below + 1) width = (List.range width).map (cell 0) ::
      (List.range' 1 below).map fun i => (List.range width).map (cell i) := by
    rw [rectangle, List.range_succ_eq_map, List.range'_eq_map_range]
    simp [Nat.add_comm]
  have hwidest := widest_of_length (by rw [hsplit]; exact List.cons_ne_nil _ _) hlength
  unfold ofRowsAt
  rw [hwidest, hsplit, List.headD_cons, List.tail_cons]
  dsimp only
  rw [List.map_map]
  congr 1
  · refine List.map_congr_left fun j hj => ?_
    rw [List.getElem?_map, List.getElem?_range (List.mem_range.mp hj)]
    rfl
  · refine congrArg dropBlankEnd (List.map_congr_left fun i _ => padded_of_length ?_)
    simp

/-- **Rectangles**: blank rows below change nothing, and blank columns at the right edge widen the
table. -/
theorem ofRowsAt_rectangle {cell : Nat → Nat → Cell} {height height' width width' : Nat}
    (hpos : 0 < height) (hheight : height ≤ height') (hwidth : width ≤ width')
    (hbelow : ∀ i j, height ≤ i → cell i j = none) (hright : ∀ i j, width ≤ j → cell i j = none)
    (headerRow : Nat) :
    ofRowsAt (rectangle cell height' width') headerRow =
      (ofRowsAt (rectangle cell height width) headerRow).widened
        ((List.range' width (width' - width)).map generatedHeader) := by
  obtain ⟨extra, rfl⟩ := Nat.exists_eq_add_of_le hwidth
  obtain ⟨below, rfl⟩ := Nat.exists_eq_add_of_le hheight
  -- the columns and the data rows are cut where the smaller rectangle ends
  have hcolumns : List.range (width + extra) = List.range width ++ List.range' width extra := by
    rw [List.range_eq_range', List.range_eq_range', ← List.range'_append_1, Nat.zero_add]
  have hrows : List.range' 1 (height + below - 1) =
      List.range' 1 (height - 1) ++ List.range' height below := by
    rw [show height + below - 1 = height - 1 + below by omega, ← List.range'_append_1,
      show 1 + (height - 1) = height by omega]
  have hrow : ∀ i, (List.range (width + extra)).map (cell i) =
      (List.range width).map (cell i) ++ List.replicate extra none := by
    intro i
    have hempty : (List.range' width extra).map (cell i) = List.replicate extra none := by
      rw [List.map_eq_replicate_iff.mpr fun j hj => hright i j (List.mem_range'_1.mp hj).1,
        List.length_range']
    rw [hcolumns, List.map_append, hempty]
  rw [ofRowsAt_rectangle_eq cell (by omega), ofRowsAt_rectangle_eq cell hpos, Table.widened]
  rw [Nat.add_sub_cancel_left, List.length_map, List.length_range']
  congr 1
  · -- the headers of the added columns are generated ones
    rw [hcolumns, List.map_append]
    refine congrArg _ (List.map_congr_left fun j hj => ?_)
    rw [hright 0 j (List.mem_range'_1.mp hj).1]
    rfl
  · rw [hrows, List.map_append, dropBlankEnd_append_blank]
    · simp only [hrow]
      rw [← dropBlankEnd_map (isBlankRow_append_none · extra), List.map_map]
      rfl
    · intro row hrow'
      obtain ⟨i, hi, rfl⟩ := List.mem_map.mp hrow'
      refine List.all_eq_true.mpr fun c hc => ?_
      obtain ⟨j, -, rfl⟩ := List.mem_map.mp hc
      rw [hbelow i j (List.mem_range'_1.mp hi).1]
      rfl

end Table

/-! ## §2 Grids of texts -/

/-- The text at a position of the rows, empty beyond their ends. -/
def textAt (rows : List (List String)) (i j : Nat) : String :=
  (rows[i]?.bind (·[j]?)).getD ""

namespace Grid

/-- The grid stores the texts of the rows at their positions, and no other values. -/
structure Holds (g : Grid) (rows : List (List String)) : Prop where
  stored : ∀ s ∈ g, s.kind ≠ .blank →
    s.kind = .text ∧ s.value ≠ "" ∧ textAt rows s.row s.column = s.value
  held : ∀ i j, textAt rows i j ≠ "" → ∃ s ∈ g, s.kind ≠ .blank ∧ s.row = i ∧ s.column = j

theorem mem_ofTexts_iff {rows : List (List String)} {s : Stored} :
    s ∈ ofTexts rows ↔
      s.kind = .text ∧ s.value ≠ "" ∧ textAt rows s.row s.column = s.value := by
  simp only [ofTexts, List.mem_flatMap, List.mem_filterMap, Prod.exists,
    List.mk_mem_zipIdx_iff_getElem?, Option.ite_none_left_eq_some]
  constructor
  · rintro ⟨row, i, hrow, text, j, htext, hne, hs⟩
    cases hs
    exact ⟨rfl, hne, by simp [textAt, hrow, htext]⟩
  · obtain ⟨i, j, kind, value⟩ := s
    rintro ⟨hkind, hne, htext⟩
    dsimp only at hkind hne htext
    subst hkind
    -- a text that is not empty stands in a row
    cases hrow : rows[i]? with
    | none => simp [textAt, hrow, hne.symm] at htext
    | some row =>
      cases hcell : row[j]? with
      | none => simp [textAt, hrow, hcell, hne.symm] at htext
      | some text =>
        obtain rfl : text = value := by simpa [textAt, hrow, hcell] using htext
        exact ⟨row, i, hrow, text, j, hcell, hne, rfl⟩

/-- The grid of given texts holds them. -/
theorem holds_ofTexts (rows : List (List String)) : (ofTexts rows).Holds rows where
  stored := fun s hs _ => mem_ofTexts_iff.mp hs
  held := fun i j hne =>
    ⟨⟨i, j, .text, textAt rows i j⟩, mem_ofTexts_iff.mpr ⟨rfl, hne, rfl⟩, by simp, rfl, rfl⟩

/-- The cell of a text. -/
def cellsOf (rows : List (List String)) (i j : Nat) : Cell :=
  Cell.ofText (textAt rows i j)

theorem cellsOf_eq_none {rows : List (List String)} {i j : Nat} (h : textAt rows i j = "") :
    cellsOf rows i j = none := by
  rw [cellsOf, h]
  rfl

/-- A used cell of a grid of texts is one of its texts, and each text is a used cell. -/
structure UsedTexts (rows : List (List String)) (cells : List Placed) : Prop where
  placed : ∀ p ∈ cells, textAt rows p.row p.column ≠ "" ∧ p.cell = cellsOf rows p.row p.column
  used : ∀ i j, textAt rows i j ≠ "" → ∃ p ∈ cells, p.row = i ∧ p.column = j

/-- Among texts there is no unknown error, so all of them are placed. -/
theorem mapM_datum?_of_texts {stored : List Stored} (h : ∀ s ∈ stored, s.kind = .text) :
    (stored.mapM fun s => s.datum?.map fun datum =>
        (⟨s.row, s.column, Cell.ofDatum datum⟩ : Placed)) =
      some (stored.map fun s => ⟨s.row, s.column, Cell.ofText s.value⟩) := by
  induction stored with
  | nil => rfl
  | cons s rest ih =>
    have hdatum : s.datum? = some (.text s.value) := by
      rw [Stored.datum?, h s List.mem_cons_self]
    rw [List.mapM_cons, ih fun r hr => h r (List.mem_cons_of_mem _ hr), hdatum]
    rfl

theorem Holds.exists_used {g : Grid} {rows : List (List String)} (h : g.Holds rows) :
    ∃ cells, g.used? = some cells ∧ UsedTexts rows cells := by
  have hfilter : ∀ s ∈ g.filter (·.kind ≠ .blank), s ∈ g ∧ s.kind ≠ .blank := by
    simp
  have htext : ∀ s ∈ g.filter (·.kind ≠ .blank), s.kind = .text :=
    fun s hs => (h.stored s (hfilter s hs).1 (hfilter s hs).2).1
  refine ⟨_, mapM_datum?_of_texts htext, ?_, ?_⟩
  · intro p hp
    obtain ⟨s, hs, rfl⟩ := List.mem_map.mp hp
    obtain ⟨-, hne, hvalue⟩ := h.stored s (hfilter s hs).1 (hfilter s hs).2
    refine ⟨?_, ?_⟩
    · dsimp only
      rwa [hvalue]
    · rw [cellsOf, hvalue]
  · intro i j hne
    obtain ⟨s, hs, hkind, hrow, hcolumn⟩ := h.held i j hne
    refine ⟨_, List.mem_map.mpr ⟨s, ?_, rfl⟩, hrow, hcolumn⟩
    simpa using ⟨hs, hkind⟩

namespace UsedTexts

variable {rows : List (List String)} {cells : List Placed}

theorem cellOf_eq (h : UsedTexts rows cells) : cellOf cells = cellsOf rows := by
  funext i j
  unfold cellOf
  cases hfind : cells.reverse.find? fun p => p.row = i ∧ p.column = j with
  | some p =>
    have hp : p.row = i ∧ p.column = j := by simpa using List.find?_some hfind
    obtain ⟨-, hcell⟩ := h.placed p (List.mem_reverse.mp (List.mem_of_find?_eq_some hfind))
    rw [hp.1, hp.2] at hcell
    simp [hcell]
  | none =>
    -- no cell is there, so no text is
    refine (cellsOf_eq_none ?_).symm
    by_contra hne
    obtain ⟨p, hp, hrow, hcolumn⟩ := h.used i j hne
    simpa [hrow, hcolumn] using List.find?_eq_none.mp hfind p (List.mem_reverse.mpr hp)

/-- No text stands right of the columns that are shown. -/
theorem textAt_eq_empty (h : UsedTexts rows cells) {i j : Nat}
    (hj : extent (cells.map Placed.column) ≤ j) : textAt rows i j = "" := by
  by_contra hne
  obtain ⟨p, hp, -, rfl⟩ := h.used i j hne
  have := lt_extent (List.mem_map_of_mem (f := Placed.column) hp)
  omega

/-- No text stands below the rows that are shown. -/
theorem cellsOf_eq_none_of_below (h : UsedTexts rows cells) {i j : Nat}
    (hi : extent (cells.map Placed.row) ≤ i) : cellsOf rows i j = none := by
  refine cellsOf_eq_none ?_
  by_contra hne
  obtain ⟨p, hp, rfl, -⟩ := h.used i j hne
  have := lt_extent (List.mem_map_of_mem (f := Placed.row) hp)
  omega

end UsedTexts

/-- Texts stand within their rows. -/
theorem lt_length_of_textAt {rows : List (List String)} {width i j : Nat}
    (hrect : ∀ row ∈ rows, row.length = width) (h : textAt rows i j ≠ "") :
    i < rows.length ∧ j < width := by
  unfold textAt at h
  cases hrow : rows[i]? with
  | none => simp [hrow] at h
  | some row =>
    obtain ⟨hi, heq⟩ := List.getElem?_eq_some_iff.mp hrow
    refine ⟨hi, ?_⟩
    rw [← hrect row (List.mem_of_getElem? hrow)]
    by_contra hj
    simp [hrow, List.getElem?_eq_none (Nat.not_lt.mp hj)] at h

/-- The cells of rows of one length are a rectangle. -/
theorem map_ofText_eq_rectangle {rows : List (List String)} {width : Nat}
    (hrect : ∀ row ∈ rows, row.length = width) :
    rows.map (·.map Cell.ofText) = rectangle (cellsOf rows) rows.length width := by
  refine List.ext_getElem (by simp [rectangle]) fun i hi _ => ?_
  rw [List.length_map] at hi
  have hlength := hrect rows[i] (List.getElem_mem hi)
  simp only [List.getElem_map, rectangle, List.getElem_range]
  refine List.ext_getElem (by simpa using hlength) fun j hj _ => ?_
  rw [List.length_map] at hj
  simp [cellsOf, textAt, hi, hj]

/-- **Cutting to the used cells**: where a text stands in the first of the rows, the table of all the
rows is the table of their grid, widened by the columns without texts at the right edge. -/
theorem Holds.exists_table {g : Grid} {rows : List (List String)} {width : Nat} (h : g.Holds rows)
    (hrect : ∀ row ∈ rows, row.length = width) (hfirst : ∃ j, textAt rows 0 j ≠ "") :
    ∃ t used, g.table? = some t ∧ (∀ row ∈ t.rows, row.length = t.width) ∧
      (∀ i j, used ≤ j → textAt rows i j = "") ∧
      Table.ofRows (rows.map (·.map Cell.ofText)) =
        t.widened ((List.range' used (width - used)).map Table.generatedHeader) := by
  obtain ⟨cells, hused, htexts⟩ := h.exists_used
  obtain ⟨j, hj⟩ := hfirst
  obtain ⟨p, hp, hrow, -⟩ := htexts.used 0 j hj
  have htop : topRow cells = 0 := Nat.le_zero.mp (hrow ▸ topRow_le hp)
  have hplaced : ∀ p ∈ cells, p.row < rows.length ∧ p.column < width :=
    fun p hp => lt_length_of_textAt hrect (htexts.placed p hp).1
  have hpos : 0 < extent (cells.map Placed.row) :=
    Nat.zero_lt_of_lt (lt_extent (List.mem_map_of_mem (f := Placed.row) hp))
  have htable : g.table? = some (Table.ofRowsAt
      (rectangle (cellsOf rows) (extent (cells.map Placed.row))
        (extent (cells.map Placed.column))) 1) := by
    rw [table?, hused, Option.map_some, tableOf_eq, htop, List.drop_zero, shownRows,
      htexts.cellOf_eq]
    rfl
  have hheight : extent (cells.map Placed.row) ≤ rows.length := by
    refine extent_le fun n hn => ?_
    obtain ⟨q, hq, rfl⟩ := List.mem_map.mp hn
    exact (hplaced q hq).1
  have hright : extent (cells.map Placed.column) ≤ width := by
    refine extent_le fun n hn => ?_
    obtain ⟨q, hq, rfl⟩ := List.mem_map.mp hn
    exact (hplaced q hq).2
  refine ⟨_, extent (cells.map Placed.column), htable,
    fun row hrow => Table.length_of_mem_rows hrow, fun i j => htexts.textAt_eq_empty, ?_⟩
  -- both are tables of rectangles of the same cells, of which the grid shows the smaller one
  rw [Table.ofRows, map_ofText_eq_rectangle hrect]
  exact Table.ofRowsAt_rectangle hpos hheight hright
    (fun i j => htexts.cellsOf_eq_none_of_below)
    (fun i j hj => cellsOf_eq_none (htexts.textAt_eq_empty hj)) 1

end Grid

end MetadataCatalog
