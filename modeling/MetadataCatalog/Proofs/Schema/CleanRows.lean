import MetadataCatalog.Proofs.Schema.Cleaning
import Mathlib.Data.List.Sort

/-!
# Clean rows and the table they come from

A clean sheet read beside its table. Its rows are the data rows that have a key, without the first
of them; each still knows where it stood, although two kinds of rows above it may be gone; and its
headers are those of the table but for the key column. `ofTable_eq_ok_iff_reflects` says that this
is all there is to cleaning: a sheet that stands so beside the table is the clean sheet of the
table.
-/

namespace MetadataCatalog.CleanSheet

/-! ## §1 Positions of rows -/

/-- The data row, counted from zero, that stands where a clean row says that it stood. -/
def position (t : Table) (r : CleanRow) : Nat :=
  r.row - t.headerRow - 1

/-- The data rows of a table that have a key, by position. -/
def keyedPositions (t : Table) (keyColumn : Nat) : List Nat :=
  (List.range t.rows.length).filter fun i => (keyAt t keyColumn i).isSome

theorem mem_keyedPositions_iff {t : Table} {keyColumn i : Nat} :
    i ∈ keyedPositions t keyColumn ↔ (keyAt t keyColumn i).isSome := by
  rw [keyedPositions, List.mem_filter, List.mem_range]
  constructor
  · intro h
    exact h.2
  · intro h
    -- beyond the last row there is no key
    obtain ⟨r, hr⟩ := exists_shows_iff.mpr h
    exact ⟨(List.getElem?_eq_some_iff.mp hr.cells).1, h⟩

variable {t : Table} {d : Dictionary} {key : MappingEntry} {s : CleanSheet} {keyColumn i : Nat}
  {r r' : CleanRow}

/-- The position of a data row is found from the row of the sheet on which it stands. -/
theorem Shows.position_eq (h : Shows t keyColumn i r) : position t r = i := by
  rw [position, h.row, Table.sheetRow]
  omega

theorem Shows.headerRow_lt (h : Shows t keyColumn i r) : t.headerRow < r.row := by
  rw [h.row, Table.sheetRow]
  omega

/-- One clean row shows one data row. -/
theorem Shows.unique (h : Shows t keyColumn i r) (h' : Shows t keyColumn i r') : r = r' := by
  have hcells : r.cells = r'.cells := Option.some.inj (h.cells.symm.trans h'.cells)
  have hkey : r.key = r'.key := Option.some.inj (h.keyAt_eq.symm.trans h'.keyAt_eq)
  have hrow : r.row = r'.row := h.row.trans h'.row.symm
  cases r
  cases r'
  rw [CleanRow.mk.injEq]
  exact ⟨hrow, hkey, hcells⟩

/-- **Positions**: the keyed rows, found where they say that they stood, are the data rows that have
a key. -/
theorem map_position_keyedRows (t : Table) (keyColumn : Nat) :
    (keyedRows t keyColumn).map (position t) = keyedPositions t keyColumn := by
  -- both lists increase, so it is enough that they have the same members
  have hkeyed : ((keyedRows t keyColumn).map (position t)).Pairwise (· < ·) := by
    rw [List.pairwise_map]
    apply (keyedRows_pairwise t keyColumn).imp_of_mem
    intro a b ha hb hlt
    obtain ⟨i, hi⟩ := mem_keyedRows_iff.mp ha
    obtain ⟨j, hj⟩ := mem_keyedRows_iff.mp hb
    rw [hi.position_eq, hj.position_eq]
    exact (hi.row_lt_iff hj).mp hlt
  have hpositions : (keyedPositions t keyColumn).Pairwise (· < ·) :=
    List.pairwise_lt_range.filter _
  apply hkeyed.eq_of_mem_iff hpositions
  intro i
  rw [mem_keyedPositions_iff, ← exists_shows_iff, List.mem_map]
  constructor
  · rintro ⟨r, hr, rfl⟩
    obtain ⟨j, hj⟩ := mem_keyedRows_iff.mp hr
    exact ⟨r, hj.position_eq.symm ▸ hj⟩
  · rintro ⟨r, hr⟩
    exact ⟨r, mem_keyedRows_iff.mpr ⟨i, hr⟩, hr.position_eq⟩

/-- Rows that show data rows of the same positions are the same rows. -/
theorem eq_of_map_position_eq {rows rows' : List CleanRow}
    (h : ∀ r ∈ rows, Shows t keyColumn (position t r) r)
    (h' : ∀ r ∈ rows', Shows t keyColumn (position t r) r)
    (heq : rows.map (position t) = rows'.map (position t)) : rows = rows' := by
  induction rows generalizing rows' with
  | nil => exact (List.map_eq_nil_iff.mp heq.symm).symm
  | cons r rest ih =>
    cases rows' with
    | nil => cases heq
    | cons r' rest' =>
      obtain ⟨hposition, hrest⟩ := List.cons.inj heq
      have hr := h r List.mem_cons_self
      rw [hposition] at hr
      rw [hr.unique (h' r' List.mem_cons_self),
        ih (fun a ha => h a (List.mem_cons_of_mem _ ha))
          (fun a ha => h' a (List.mem_cons_of_mem _ ha)) hrest]

/-! ## §2 A clean sheet beside its table -/

/-- What the clean sheet of a table is, `key` being the first entry of the dictionary. -/
structure Reflects (t : Table) (key : MappingEntry) (s : CleanSheet) : Prop where
  /-- The key column is the first one under the header that the dictionary gives. -/
  column : LeftmostAt t.headers key.column s.keyColumn
  width : s.headers.length = t.headers.length
  /-- The key column carries the canonical name. -/
  renamed : s.headers[s.keyColumn]? = some key.canonical
  /-- The other columns keep their headers. -/
  others : ∀ j, j ≠ s.keyColumn → s.headers[j]? = t.headers[j]?
  /-- The rows are those with a key, but for the first. -/
  cells : s.rows.map CleanRow.cells =
    (t.rows.filter fun cells => (cellAt cells s.keyColumn).isSome).drop 1
  /-- So they are by their positions. -/
  positions : s.rows.map (position t) = (keyedPositions t s.keyColumn).drop 1
  /-- The rows stand in the order of the sheet. -/
  order : s.rows.Pairwise fun a b => a.row < b.row
  /-- Each row has the cells of the data row that it is numbered for, and its key. -/
  shows : ∀ r ∈ s.rows, t.headerRow < r.row ∧ t.rows[position t r]? = some r.cells ∧
    cellAt r.cells s.keyColumn = some r.key
  /-- No key stands twice. -/
  keys : (s.rows.map CleanRow.key).Nodup

/-- Below the header every row number stands for a data row. -/
theorem Reflects.shows_position (h : Reflects t key s) {r : CleanRow} (hr : r ∈ s.rows) :
    Shows t s.keyColumn (position t r) r := by
  obtain ⟨hlt, hcells, hkey⟩ := h.shows r hr
  refine ⟨?_, hcells, hkey⟩
  rw [Table.sheetRow, position]
  omega

theorem Cleaned.reflects (h : Cleaned t d key s) : Reflects t key s where
  column := h.column
  width := by rw [h.headers, List.length_set]
  renamed := h.header_keyColumn
  others j hj := by rw [h.headers, List.getElem?_set_ne hj.symm]
  cells := by rw [h.rows, List.map_drop, map_cells_keyedRows]
  positions := by rw [h.rows, List.map_drop, map_position_keyedRows]
  order := h.rows ▸ survivors_pairwise t s.keyColumn
  shows r hr := by
    rw [h.rows] at hr
    obtain ⟨i, hi, -⟩ := mem_survivors_iff.mp hr
    rw [hi.position_eq]
    exact ⟨hi.headerRow_lt, hi.cells, hi.key⟩
  keys := h.keys_nodup

/-- The headers of the table with the canonical name put in are told by their columns. -/
theorem Reflects.headers_eq (h : Reflects t key s) :
    s.headers = t.headers.set s.keyColumn key.canonical := by
  apply List.ext_getElem?
  intro j
  by_cases hj : j = s.keyColumn
  · obtain ⟨hlt, -⟩ := List.getElem?_eq_some_iff.mp h.column.1
    rw [hj, h.renamed, List.getElem?_set_self hlt]
  · rw [h.others j hj, List.getElem?_set_ne (Ne.symm hj)]

/-- The survivors of the table are told by their positions. -/
theorem Reflects.rows_eq (h : Reflects t key s) :
    s.rows = (keyedRows t s.keyColumn).drop 1 := by
  have hsurvivors : ∀ r ∈ (keyedRows t s.keyColumn).drop 1,
      Shows t s.keyColumn (position t r) r := by
    intro r hr
    obtain ⟨i, hi, -⟩ := mem_survivors_iff.mp hr
    exact hi.position_eq.symm ▸ hi
  apply eq_of_map_position_eq (fun r hr => h.shows_position hr) hsurvivors
  rw [h.positions, List.map_drop, map_position_keyedRows]

theorem Reflects.cleaned (h : Reflects t key s) (hentry : d.Holds Dictionary.keyRow key) :
    Cleaned t d key s where
  entry := hentry
  column := h.column
  headers := h.headers_eq
  rows := h.rows_eq
  distinct := firstRepeat?_eq_none_iff.mpr ⟨h.keys, fun _ _ => List.not_mem_nil⟩

/-- **Clean rows**: a table has a clean sheet exactly when the dictionary has a first entry and the
sheet reflects the table: the rows with a key but for the first, in order, each numbered for the
data row whose cells and key it has, the keys all different, and the headers those of the table with
the canonical name over the key column. -/
theorem ofTable_eq_ok_iff_reflects (t : Table) (d : Dictionary) (s : CleanSheet) :
    ofTable t d = .ok s ↔ ∃ key, d.Holds Dictionary.keyRow key ∧ Reflects t key s := by
  rw [ofTable_eq_ok_iff]
  constructor
  · rintro ⟨key, h⟩
    exact ⟨key, h.entry, h.reflects⟩
  · rintro ⟨key, hentry, h⟩
    exact ⟨key, h.cleaned hentry⟩

-- above the two fields stand the row that explains the columns and a row without a key
example : fieldSheet.rows.map (position fieldTable) = [1, 3] := rfl

end MetadataCatalog.CleanSheet
