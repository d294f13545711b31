import MetadataCatalog.Proofs.Outcomes
import MetadataCatalog.Proofs.Schema.Obstacles

/-!
# Empty columns at the right edge

A table that is wider by columns without values gives the same schema document, or fails in the same
way (`Schema.outline_descriptors_widened`), as long as the dictionary looks for neither the keys nor
the values under the header of such a column. The new columns may become attributes, but all their
values are null and are pruned.
-/

namespace MetadataCatalog

/-! ## §1 Widened rows and tables -/

/-- A cell beyond the end of a row is empty, and so is one that is added there. -/
theorem cellAt_append_none (row : List Cell) (k column : Nat) :
    cellAt (row ++ List.replicate k none) column = cellAt row column := by
  unfold cellAt
  by_cases hrow : column < row.length
  · rw [List.getElem?_append_left hrow]
  · rw [List.getElem?_append_right (Nat.not_lt.mp hrow), List.getElem?_replicate,
      List.getElem?_eq_none (Nat.not_lt.mp hrow)]
    split <;> rfl

/-- The table with columns of empty cells under the given headers at its right edge. -/
def Table.widened (t : Table) (extra : List String) : Table :=
  { t with
    headers := t.headers ++ extra
    rows := t.rows.map (· ++ List.replicate extra.length none) }

/-- The row with so many empty cells at its end. -/
def CleanRow.widened (k : Nat) (r : CleanRow) : CleanRow :=
  { r with cells := r.cells ++ List.replicate k none }

theorem Dictionary.ofTable_widened (t : Table) (extra : List String) :
    Dictionary.ofTable (t.widened extra) = Dictionary.ofTable t := by
  simp only [Dictionary.ofTable, Table.widened, List.map_map, Function.comp_def,
    cellAt_append_none]

theorem LeftmostAt.append {headers : List String} {header : String} {c : Nat}
    (h : LeftmostAt headers header c) (extra : List String) :
    LeftmostAt (headers ++ extra) header c := by
  obtain ⟨hlt, -⟩ := List.getElem?_eq_some_iff.mp h.1
  refine ⟨by rw [List.getElem?_append_left hlt, h.1], fun j hj => ?_⟩
  rw [List.getElem?_append_left (Nat.lt_trans hj hlt)]
  exact h.2 j hj

/-! ## §2 Cleaning a widened table -/

namespace CleanSheet

theorem keyedRows_widened (t : Table) (extra : List String) (keyColumn : Nat) :
    keyedRows (t.widened extra) keyColumn =
      (keyedRows t keyColumn).map (CleanRow.widened extra.length) := by
  unfold keyedRows Table.widened
  rw [List.zipIdx_map, List.filterMap_map, List.map_filterMap]
  congr 1
  -- a row keeps its key and its number, and has more cells
  funext ⟨cells, i⟩
  simp only [Function.comp_apply, Prod.map_apply, id_eq, cellAt_append_none]
  cases cellAt cells keyColumn <;> rfl

theorem firstRepeat?_widened (k : Nat) (seen : List String) (rows : List CleanRow) :
    firstRepeat? seen (rows.map (CleanRow.widened k)) =
      (firstRepeat? seen rows).map (CleanRow.widened k) := by
  induction rows generalizing seen with
  | nil => rfl
  | cons r rest ih =>
    have hkey : (r.widened k).key = r.key := rfl
    rw [List.map_cons, firstRepeat?, firstRepeat?, hkey]
    split
    · rfl
    · exact ih (r.key :: seen)

/-- The sheet with columns of empty cells at its right edge. -/
def widened (s : CleanSheet) (extra : List String) : CleanSheet :=
  { s with
    headers := s.headers ++ extra
    rows := s.rows.map (CleanRow.widened extra.length) }

section Cleaned

variable {t : Table} {d : Dictionary} {key : MappingEntry} {s : CleanSheet}

theorem Cleaned.keyColumn_lt (h : Cleaned t d key s) : s.keyColumn < s.headers.length :=
  (List.getElem?_eq_some_iff.mp h.header_keyColumn).1

theorem Cleaned.widened (h : Cleaned t d key s) (extra : List String) :
    Cleaned (t.widened extra) d key (s.widened extra) where
  entry := h.entry
  column := h.column.append extra
  headers := by
    obtain ⟨hlt, -⟩ := List.getElem?_eq_some_iff.mp h.column.1
    show s.headers ++ extra = (t.headers ++ extra).set s.keyColumn key.canonical
    rw [List.set_append_left _ _ hlt, h.headers]
  rows := by
    show s.rows.map _ = (keyedRows (t.widened extra) s.keyColumn).drop 1
    rw [keyedRows_widened, ← List.map_drop, h.rows]
  distinct := by
    show firstRepeat? [] (s.rows.map _) = none
    rw [firstRepeat?_widened, h.distinct]
    rfl

/-- The rows of a clean sheet are no longer than those of its table. -/
theorem Cleaned.length_cells_le (h : Cleaned t d key s)
    (hrect : ∀ row ∈ t.rows, row.length = t.width) {r : CleanRow} (hr : r ∈ s.rows) :
    r.cells.length ≤ s.headers.length := by
  rw [h.rows] at hr
  obtain ⟨i, hi, -⟩ := mem_survivors_iff.mp hr
  rw [h.headers, List.length_set, hrect r.cells (List.mem_of_getElem? hi.cells)]
  rfl

end Cleaned

end CleanSheet

/-! ## §3 The layout of a widened sheet -/

namespace Layout

/-- What the columns at the end are taken over for does not change what those before them are. -/
theorem exists_distinct_append (taken : List String) (columns more : List (Nat × String)) :
    ∃ behind, distinct taken (columns ++ more) = distinct taken columns ++ behind ∧
      behind.Sublist more := by
  induction columns generalizing taken with
  | nil => exact ⟨distinct taken more, rfl, distinct_sublist taken more⟩
  | cons a rest ih =>
    obtain ⟨j, name⟩ := a
    rw [List.cons_append, distinct, distinct]
    split
    · exact ih taken
    · obtain ⟨behind, hbehind, hsub⟩ := ih (name :: taken)
      exact ⟨behind, by rw [hbehind, List.cons_append], hsub⟩

/-- Columns at the right edge become candidates behind the others. -/
theorem exists_candidates_widened (s : CleanSheet) (extra : List String) (d : Dictionary)
    (valuesColumn : Nat) :
    ∃ behind, candidates (s.widened extra) d valuesColumn =
        candidates s d valuesColumn ++ behind ∧
      ∀ a ∈ behind, s.headers.length ≤ a.1 := by
  unfold candidates CleanSheet.widened
  rw [List.take_append, List.zipIdx_append, List.filterMap_append]
  refine ⟨_, rfl, ?_⟩
  rintro ⟨j, name⟩ ha
  obtain ⟨⟨header, i⟩, hmem, hcolumn⟩ := List.mem_filterMap.mp ha
  obtain ⟨hle, hheader⟩ := List.mk_mem_zipIdx_iff_le_and_getElem?_sub.mp hmem
  obtain ⟨hlt, -⟩ := List.getElem?_eq_some_iff.mp hheader
  simp only [List.length_take] at hle hlt
  dsimp only at hcolumn
  split at hcolumn
  · cases hcolumn
  · cases hcolumn
    -- a new column is a leading one only if all the old ones are
    omega

theorem Resolved.exists_widened {s : CleanSheet} {d : Dictionary} {values : MappingEntry}
    {layout : Layout} (h : Resolved s d values layout) (hkey : s.keyColumn < s.headers.length)
    (extra : List String) :
    ∃ behind, (∀ a ∈ behind, s.headers.length ≤ a.1) ∧
      Resolved (s.widened extra) d values
        { layout with attributes := layout.attributes ++ behind } := by
  obtain ⟨candidates, hcandidates, hright⟩ :=
    exists_candidates_widened s extra d layout.valuesColumn
  obtain ⟨behind, hbehind, hsub⟩ :=
    exists_distinct_append [layout.keyField] (Layout.candidates s d layout.valuesColumn) candidates
  refine ⟨behind, fun a ha => hright a (hsub.mem ha), h.entry, h.column.append extra, ?_, ?_,
    h.valuesField⟩
  · show layout.keyField = (s.headers ++ extra).getD s.keyColumn ""
    rw [h.keyField, List.getD_eq_getElem?_getD, List.getD_eq_getElem?_getD,
      List.getElem?_append_left hkey]
  · show layout.attributes ++ behind = _
    rw [hcandidates, hbehind, h.attributes]

end Layout

/-! ## §4 Joined records -/

theorem Json.pruneEntries_nulls {nulls : Json.Entries} (h : ∀ e ∈ nulls, e.2 = .null) :
    Json.pruneEntries nulls = [] := by
  rw [Json.pruneEntries_eq, List.filter_eq_nil_iff.mpr, List.map_nil]
  intro e he
  simp [h e he, Json.isNull]

/-- Among nulls a value is the only one that is left, in whichever place it is put. -/
theorem Json.pruneEntries_put_nulls {nulls : Json.Entries} (h : ∀ e ∈ nulls, e.2 = .null)
    (name : String) (value : Json) :
    Json.pruneEntries (Json.Entries.put name value nulls) =
      Json.pruneEntries [(name, value)] := by
  induction nulls with
  | nil => rfl
  | cons e rest ih =>
    obtain ⟨other, v⟩ := e
    obtain rfl : v = .null := h _ List.mem_cons_self
    have hrest := fun e he => h e (List.mem_cons_of_mem _ he)
    rw [Json.Entries.put]
    split
    · next heq =>
      have hsplit := Json.pruneEntries_append [(other, value)] rest
      rw [Json.pruneEntries_nulls hrest, List.append_nil] at hsplit
      rw [← heq]
      exact hsplit
    · exact ih hrest

/-- Nulls behind a record are pruned, even if a value is put in the place of one of them: it would
have gone to the end. -/
theorem Json.pruneEntries_put_append_nulls {nulls : Json.Entries} (h : ∀ e ∈ nulls, e.2 = .null)
    (name : String) (value : Json) (entries : Json.Entries) :
    Json.pruneEntries (Json.Entries.put name value (entries ++ nulls)) =
      Json.pruneEntries (Json.Entries.put name value entries) := by
  induction entries with
  | nil => exact Json.pruneEntries_put_nulls h name value
  | cons e rest ih =>
    obtain ⟨other, v⟩ := e
    rw [List.cons_append, Json.Entries.put, Json.Entries.put]
    split
    · rw [← List.cons_append, Json.pruneEntries_append, Json.pruneEntries_nulls h, List.append_nil]
    · rw [Json.pruneEntries, Json.pruneEntries, ih]

/-- A row with empty cells at its end tells the same, whatever the columns of these are taken for. -/
theorem ValueLists.pruneEntries_joinedRow_widened {layout : Layout} {behind : List (Nat × String)}
    {row : CleanRow} (hnames : layout.fieldNames.Nodup)
    (hnames' : Layout.fieldNames { layout with attributes := layout.attributes ++ behind } |>.Nodup)
    (hright : ∀ a ∈ behind, row.cells.length ≤ a.1) (k : Nat) :
    Json.pruneEntries (joinedRow { layout with attributes := layout.attributes ++ behind }
        (row.widened k)) =
      Json.pruneEntries (joinedRow layout row) := by
  have hcells : ofCells (row.widened k).cells layout.valuesColumn =
      ofCells row.cells layout.valuesColumn := by
    unfold ofCells CleanRow.widened
    rw [cellAt_append_none]
    simp [List.drop_append]
  -- the fields of the new columns are null and stand behind the others
  have hrecord : Record.ofRow { layout with attributes := layout.attributes ++ behind }
      (row.widened k) = Record.ofRow layout row ++ behind.map fun a => (a.2, .null) := by
    rw [Record.ofRow_eq hnames', Record.ofRow_eq hnames]
    simp only [CleanRow.widened, cellAt_append_none, List.map_append, List.cons_append]
    congr 2
    refine List.map_congr_left fun a ha => ?_
    rw [cellAt, List.getElem?_eq_none (hright a ha)]
    rfl
  unfold joinedRow
  rw [hrecord, hcells]
  refine Json.pruneEntries_put_append_nulls (fun e he => ?_) _ _ _
  obtain ⟨a, -, rfl⟩ := List.mem_map.mp he
  rfl

/-! ## §5 Documents -/

/-- Once a sheet is clean, empty columns do not matter. -/
theorem Schema.outline_descriptors_of_cleaned {t : Table} {d : Dictionary} {key : MappingEntry}
    {s : CleanSheet} {extra : List String} (hs : CleanSheet.Cleaned t d key s)
    (hrect : ∀ row ∈ t.rows, row.length = t.width)
    (hextra : ∀ e, d.Holds Dictionary.valuesRow e → e.column ∉ extra) :
    outline (Schema.descriptors (t.widened extra) d) = outline (Schema.descriptors t d) := by
  have hs' := hs.widened extra
  have hok := CleanSheet.ofTable_eq_ok_iff.mpr ⟨key, hs⟩
  have hok' := CleanSheet.ofTable_eq_ok_iff.mpr ⟨key, hs'⟩
  by_cases hentry : ∃ values, d.Holds Dictionary.valuesRow values
  · obtain ⟨values, hvalues⟩ := hentry
    by_cases hmem : values.column ∈ s.headers
    · obtain ⟨v, hv⟩ := exists_leftmostAt hmem
      obtain ⟨values', hl⟩ :=
        Layout.resolve_eq_ok_iff.mp (Layout.resolve_of_leftmostAt hvalues hv)
      obtain ⟨behind, hright, hl'⟩ := hl.exists_widened hs.keyColumn_lt extra
      rw [descriptors_of_resolved hs hl, descriptors_of_resolved hs' hl']
      -- both list the same rows, so they are compared row by row
      rw [CleanSheet.widened, List.map_map]
      refine congrArg (fun items => outline (.ok (Json.list items))) ?_
      refine List.map_congr_left fun row hrow => ?_
      have hcells := hs.length_cells_le hrect hrow
      exact congrArg Json.object (ValueLists.pruneEntries_joinedRow_widened hl.fieldNames_nodup
        hl'.fieldNames_nodup (fun a ha => Nat.le_trans hcells (hright a ha)) extra.length)
    · have hmem' : values.column ∉ (s.widened extra).headers := by
        rw [CleanSheet.widened, List.mem_append, not_or]
        exact ⟨hmem, hextra values hvalues⟩
      rw [descriptors_of_resolve_error hok (Layout.resolve_of_not_mem hvalues hmem),
        descriptors_of_resolve_error hok' (Layout.resolve_of_not_mem hvalues hmem')]
      rfl
  · have hmissing := not_exists.mp hentry
    rw [descriptors_of_resolve_error hok (Layout.resolve_of_not_holds hmissing),
      descriptors_of_resolve_error hok' (Layout.resolve_of_not_holds hmissing)]

/-- **Empty columns**: a table that is wider by empty columns has the same schema document, or fails
in the same way, unless the dictionary looks for the keys or the values under one of their
headers. -/
theorem Schema.outline_descriptors_widened {t : Table} {d : Dictionary} {extra : List String}
    (hrect : ∀ row ∈ t.rows, row.length = t.width)
    (hextra : ∀ index, index = Dictionary.keyRow ∨ index = Dictionary.valuesRow →
      ∀ e, d.Holds index e → e.column ∉ extra) :
    outline (Schema.descriptors (t.widened extra) d) = outline (Schema.descriptors t d) := by
  by_cases hentry : ∃ key, d.Holds Dictionary.keyRow key
  · obtain ⟨key, hkey⟩ := hentry
    by_cases hmem : key.column ∈ t.headers
    · obtain ⟨c, hc⟩ := exists_leftmostAt hmem
      have hofTable := CleanSheet.ofTable_of_leftmostAt hkey hc
      have hofTable' := CleanSheet.ofTable_of_leftmostAt (t := t.widened extra) hkey
        (hc.append extra)
      rw [CleanSheet.keyedRows_widened, ← List.map_drop, CleanSheet.firstRepeat?_widened]
        at hofTable'
      cases hrepeat : CleanSheet.firstRepeat? [] ((CleanSheet.keyedRows t c).drop 1) with
      | some r =>
        rw [hrepeat] at hofTable hofTable'
        rw [descriptors_of_ofTable_error hofTable, descriptors_of_ofTable_error hofTable']
        rfl
      | none =>
        rw [hrepeat] at hofTable
        obtain ⟨key', hs⟩ := CleanSheet.ofTable_eq_ok_iff.mp hofTable
        exact outline_descriptors_of_cleaned hs hrect fun e he => hextra _ (Or.inr rfl) e he
    · have hmem' : key.column ∉ (t.widened extra).headers := by
        rw [Table.widened, List.mem_append, not_or]
        exact ⟨hmem, hextra _ (Or.inl rfl) key hkey⟩
      rw [descriptors_of_ofTable_error (CleanSheet.ofTable_of_not_mem hkey hmem),
        descriptors_of_ofTable_error (CleanSheet.ofTable_of_not_mem hkey hmem')]
      rfl
  · have hmissing := not_exists.mp hentry
    rw [descriptors_of_ofTable_error (CleanSheet.ofTable_of_not_holds hmissing),
      descriptors_of_ofTable_error (CleanSheet.ofTable_of_not_holds hmissing)]

end MetadataCatalog
