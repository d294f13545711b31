import MetadataCatalog.Proofs.Schema.Joining
import MetadataCatalog.Schema.Document

/-!
# Regions of a row

Which cells of a row its descriptor shows: those of the described columns (the key and the
attributes) and, for a row that lists values, those of the listed columns, which run from the
values column to the end of the row. No cell is shown twice when the described columns end before
the values column; `columns_nodup_iff` says when that is so.
-/

namespace MetadataCatalog

/-! ## §1 Described and listed columns -/

/-- The columns whose cells a row's record shows: the key column, then those of the attributes
whose cell is filled. -/
def describedColumns (s : CleanSheet) (layout : Layout) (cells : List Cell) : List Nat :=
  s.keyColumn :: (layout.attributes.map Prod.fst).filter fun c => (cellAt cells c).isSome

/-- The columns whose cells a row's list of values shows: if the cell in the values column is
filled, every filled one from there on. -/
def listedColumns (layout : Layout) (cells : List Cell) : List Nat :=
  if (cellAt cells layout.valuesColumn).isSome then
    (List.range' layout.valuesColumn (cells.length - layout.valuesColumn)).filter fun c =>
      (cellAt cells c).isSome
  else []

/-- The key column and the columns of the attributes lie left of the values column. -/
def RegionsApart (s : CleanSheet) (layout : Layout) : Prop :=
  s.keyColumn < layout.valuesColumn ∧ ∀ a ∈ layout.attributes, a.1 < layout.valuesColumn

instance (s : CleanSheet) (layout : Layout) : Decidable (RegionsApart s layout) :=
  inferInstanceAs (Decidable (_ ∧ _))

theorem lt_length_of_cellAt {cells : List Cell} {c : Nat} (h : (cellAt cells c).isSome) :
    c < cells.length := by
  by_contra hge
  rw [cellAt, List.getElem?_eq_none (by omega)] at h
  cases h

theorem mem_listedColumns_iff {layout : Layout} {cells : List Cell} {c : Nat} :
    c ∈ listedColumns layout cells ↔
      (cellAt cells layout.valuesColumn).isSome ∧ layout.valuesColumn ≤ c ∧
        (cellAt cells c).isSome := by
  unfold listedColumns
  split
  · rename_i hflag
    rw [List.mem_filter, List.mem_range'_1]
    constructor
    · rintro ⟨⟨hle, -⟩, hcell⟩
      exact ⟨hflag, hle, hcell⟩
    · rintro ⟨-, hle, hcell⟩
      have := lt_length_of_cellAt hcell
      exact ⟨⟨hle, by omega⟩, hcell⟩
  · rename_i hflag
    simp [hflag]

theorem listedColumns_nodup (layout : Layout) (cells : List Cell) :
    (listedColumns layout cells).Nodup := by
  unfold listedColumns
  split
  · exact List.Nodup.filter _ List.nodup_range'
  · exact List.nodup_nil

/-! ## §2 What the columns show -/

/-- The filled cells of a list of columns are the cells of the filled columns. -/
theorem filterMap_cellAt_filter (cells : List Cell) (columns : List Nat) :
    (columns.filter fun c => (cellAt cells c).isSome).filterMap (cellAt cells) =
      columns.filterMap (cellAt cells) := by
  rw [List.filterMap_filter]
  congr 1
  funext c
  cases cellAt cells c <;> simp

/-- The cells from a column on are those in the columns from there to the end. -/
theorem drop_eq_map_cellAt (cells : List Cell) (c : Nat) :
    cells.drop c = (List.range' c (cells.length - c)).map (cellAt cells) := by
  apply List.ext_getElem
  · simp
  · intro i hi _
    rw [List.length_drop] at hi
    simp [cellAt, List.getElem?_eq_getElem (show c + i < cells.length by omega)]

/-- **Lists of values** show the listed columns, behind the empty text. -/
theorem ofCells_eq_listedColumns {layout : Layout} {cells : List Cell} {list : List String}
    (h : ValueLists.ofCells cells layout.valuesColumn = some list) :
    list = "" :: (listedColumns layout cells).filterMap (cellAt cells) := by
  obtain ⟨flag, hflag, rfl⟩ := Option.map_eq_some_iff.mp h
  rw [listedColumns, hflag, Option.isSome_some, if_pos rfl, filterMap_cellAt_filter,
    drop_eq_map_cellAt, List.filterMap_map]
  rfl

/-- **Records** show the described columns. -/
theorem texts_ofRow {s : CleanSheet} {layout : Layout} {row : CleanRow}
    (hnames : layout.fieldNames.Nodup) (hkey : cellAt row.cells s.keyColumn = some row.key) :
    (Record.ofRow layout row).filterMap (fun e => e.2.text?) =
      (describedColumns s layout row.cells).filterMap (cellAt row.cells) := by
  have hcell : ∀ c : Cell, (Record.cellValue c).text? = c := by
    intro c
    cases c <;> rfl
  rw [Record.ofRow_eq hnames, describedColumns, List.filterMap_cons_some hkey,
    filterMap_cellAt_filter, List.filterMap_map]
  show row.key :: List.filterMap _ _ = _
  rw [List.filterMap_map]
  simp only [Function.comp_def, hcell]

/-! ## §3 Cells shown twice -/

section Overlap

variable {t : Table} {s : CleanSheet} {d : Dictionary} {values : MappingEntry} {layout : Layout}

theorem describedColumns_nodup (h : Layout.Resolved s d values layout) (cells : List Cell) :
    (describedColumns s layout cells).Nodup := by
  have hcolumns : (layout.attributes.map Prod.fst).Nodup := by
    rw [List.Nodup, List.pairwise_map]
    exact h.attributes_pairwise.imp Nat.ne_of_lt
  refine List.nodup_cons.mpr ⟨fun hmem => ?_, hcolumns.filter _⟩
  obtain ⟨⟨j, name⟩, ha, hj⟩ := List.mem_map.mp (List.mem_of_mem_filter hmem)
  exact (h.mem_attributes_iff.mp ha).1.2.1 hj

/-- A cell of a row is shown twice exactly when the row lists values and its key or the filled cell
of an attribute stands in the values column or further right. -/
theorem columns_nodup_iff (h : Layout.Resolved s d values layout) {row : CleanRow}
    (hkey : cellAt row.cells s.keyColumn = some row.key) :
    (describedColumns s layout row.cells ++ listedColumns layout row.cells).Nodup ↔
      ((cellAt row.cells layout.valuesColumn).isSome → s.keyColumn < layout.valuesColumn ∧
        ∀ a ∈ layout.attributes, (cellAt row.cells a.1).isSome → a.1 < layout.valuesColumn) := by
  rw [List.nodup_append]
  constructor
  · rintro ⟨-, -, hne⟩ hflag
    -- a described column that is not left of the values column is a listed one
    have hleft : ∀ c ∈ describedColumns s layout row.cells, (cellAt row.cells c).isSome →
        c < layout.valuesColumn := by
      intro c hc hcell
      by_contra hge
      exact hne c hc c (mem_listedColumns_iff.mpr ⟨hflag, by omega, hcell⟩) rfl
    refine ⟨hleft _ List.mem_cons_self (by rw [hkey]; rfl), fun a ha hcell => ?_⟩
    refine hleft a.1 (List.mem_cons_of_mem _ (List.mem_filter.mpr ⟨?_, hcell⟩)) hcell
    exact List.mem_map_of_mem ha
  -- conversely a column that is both described and listed is not left of the values column
  · intro hleft
    refine ⟨describedColumns_nodup h _, listedColumns_nodup _ _, fun c hc c' hc' heq => ?_⟩
    subst heq
    obtain ⟨hflag, hle, hcell⟩ := mem_listedColumns_iff.mp hc'
    obtain ⟨hkeyLeft, hattributes⟩ := hleft hflag
    rcases List.mem_cons.mp hc with rfl | hc
    · omega
    · obtain ⟨a, ha, rfl⟩ := List.mem_map.mp (List.mem_of_mem_filter hc)
      have := hattributes a ha hcell
      omega

/-- The regions lie apart exactly when the key column stands left of the values column and every
leading column right of it bears the name of the key or of a leading column further left. -/
theorem regionsApart_iff (h : Layout.Resolved s d values layout) :
    RegionsApart s layout ↔ s.keyColumn < layout.valuesColumn ∧
      ∀ j name, layout.valuesColumn < j → Layout.Candidate s d layout.valuesColumn j name →
        name = layout.keyField ∨ ∃ i < j, Layout.Candidate s d layout.valuesColumn i name := by
  constructor
  · rintro ⟨hkey, hattributes⟩
    refine ⟨hkey, fun j name hlt hcand => ?_⟩
    -- a candidate whose name is not taken would be an attribute right of the values column
    by_contra hnot
    obtain ⟨hname, hleft⟩ := not_or.mp hnot
    have ha : (j, name) ∈ layout.attributes :=
      h.mem_attributes_iff.mpr ⟨hcand, hname, fun i hi hc => hleft ⟨i, hi, hc⟩⟩
    exact Nat.lt_asymm hlt (hattributes _ ha)
  · rintro ⟨hkey, hright⟩
    refine ⟨hkey, ?_⟩
    rintro ⟨j, name⟩ ha
    obtain ⟨hcand, hname, hleft⟩ := h.mem_attributes_iff.mp ha
    by_contra hge
    have hlt : layout.valuesColumn < j :=
      Nat.lt_of_le_of_ne (Nat.le_of_not_lt hge) (Ne.symm hcand.2.2.1)
    -- an attribute's name is not taken, so it cannot stand right of the values column
    rcases hright j name hlt hcand with heq | ⟨i, hi, hc⟩
    · exact hname heq
    · exact hleft i hi hc

end Overlap

/-- **Cells shown once**: the key and the attributes of a resolved layout lie left of the values
column exactly when the key column does and each leading column right of the values column bears the
name of the key or of a leading column further left. Row by row, the record shows the described
columns and the list of values the listed ones, and no cell is shown twice exactly when the row
lists no values or its key and its filled attributes stand left of them. -/
theorem cells_shown_once_iff {t : Table} {d : Dictionary} {s : CleanSheet} {layout : Layout}
    (hs : CleanSheet.ofTable t d = .ok s) (hl : Layout.resolve s d = .ok layout) :
    (RegionsApart s layout ↔ s.keyColumn < layout.valuesColumn ∧
      ∀ j name, layout.valuesColumn < j → Layout.Candidate s d layout.valuesColumn j name →
        name = layout.keyField ∨ ∃ i < j, Layout.Candidate s d layout.valuesColumn i name) ∧
      ∀ row ∈ s.rows,
        (Record.ofRow layout row).filterMap (fun e => e.2.text?) =
            (describedColumns s layout row.cells).filterMap (cellAt row.cells) ∧
          (∀ list, ValueLists.ofCells row.cells layout.valuesColumn = some list →
            list = "" :: (listedColumns layout row.cells).filterMap (cellAt row.cells)) ∧
          ((describedColumns s layout row.cells ++ listedColumns layout row.cells).Nodup ↔
            ((cellAt row.cells layout.valuesColumn).isSome →
              s.keyColumn < layout.valuesColumn ∧ ∀ a ∈ layout.attributes,
                (cellAt row.cells a.1).isSome → a.1 < layout.valuesColumn)) := by
  obtain ⟨key, hs⟩ := CleanSheet.ofTable_eq_ok_iff.mp hs
  obtain ⟨values, hl⟩ := Layout.resolve_eq_ok_iff.mp hl
  refine ⟨regionsApart_iff hl, fun row hrow => ?_⟩
  have hkey := hs.cellAt_keyColumn hrow
  exact ⟨texts_ofRow hl.fieldNames_nodup hkey, fun _ h => ofCells_eq_listedColumns h,
    columns_nodup_iff hl hkey⟩

/-- On the small sheet no cell of a row is shown twice. -/
theorem cells_shown_once_fields :
    ∃ s layout, CleanSheet.ofTable CleanSheet.fieldTable (CleanSheet.siteDictionary "values") =
        .ok s ∧
      Layout.resolve s (CleanSheet.siteDictionary "values") = .ok layout ∧
      RegionsApart s layout ∧ s.rows.length = 2 ∧
      ∀ row ∈ s.rows,
        (describedColumns s layout row.cells ++ listedColumns layout row.cells).Nodup := by
  have hs := CleanSheet.ofTable_fieldTable "values"
  have hl := Layout.resolve_fieldSheet "values"
  have hapart : RegionsApart CleanSheet.fieldSheet (Layout.fieldLayout "values") := by decide
  refine ⟨_, _, hs, hl, hapart, rfl, fun row hrow => ?_⟩
  obtain ⟨-, -, hnodup⟩ := (cells_shown_once_iff hs hl).2 row hrow
  exact hnodup.mpr fun _ => ⟨hapart.1, fun a ha _ => hapart.2 a ha⟩

/-- A sheet with an attribute right of the values column. -/
def overlapTable : Table :=
  Table.ofRows
    [[some "metakey", some "values", some "unit"],
      [some "key of the field"],
      [some "beam", some "red", some "mm"]]

/-- **A cell shown twice**: the unit of the only row is both its attribute and one of its permitted
values. -/
theorem unit_shown_twice :
    ∃ s layout row, CleanSheet.ofTable overlapTable (CleanSheet.siteDictionary "values") = .ok s ∧
      Layout.resolve s (CleanSheet.siteDictionary "values") = .ok layout ∧
      row ∈ s.rows ∧ ¬ RegionsApart s layout ∧
      ¬ (describedColumns s layout row.cells ++ listedColumns layout row.cells).Nodup ∧
      Schema.descriptors overlapTable (CleanSheet.siteDictionary "values") =
        .ok (.list [.object [("key", .text "beam"), ("unit", .text "mm"),
          ("values", .list [.text "", .text "red", .text "mm"])]]) := by
  refine ⟨⟨["key", "values", "unit"], 0, [⟨3, "beam", [some "beam", some "red", some "mm"]⟩]⟩,
    ⟨"key", [(2, "unit")], 1, "values"⟩, _, rfl, rfl, List.mem_cons_self, by decide, by decide, rfl⟩

end MetadataCatalog
