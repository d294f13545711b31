import MetadataCatalog.Proofs.Schema.Joining
import MetadataCatalog.Schema.Document

/-!
# Descriptors as rows are read

The schema document read straight off the sheet. `readRow` says what one row tells about its field,
with no other row looked at and nothing put into a record, joined or pruned. The document lists what
the keyed rows but the first tell, as long as the list of values has a name of its own.
-/

namespace MetadataCatalog

/-! ## §1 Pruning a joined record -/

namespace Json

theorem pruneEntries_append (front back : Entries) :
    pruneEntries (front ++ back) = pruneEntries front ++ pruneEntries back := by
  simp only [pruneEntries_eq, List.filter_append, List.map_append]

/-- Texts are not pruned. -/
theorem pruneItems_map_text (texts : List String) :
    pruneItems (texts.map .text) = texts.map .text := by
  induction texts with
  | nil => rfl
  | cons s rest ih => simp [pruneItems, isNull, prune, ih]

/-- Objects in a list stay, each pruned. -/
theorem prune_list_objects {α : Type} (entries : α → Entries) (items : List α) :
    prune (.list (items.map fun a => .object (entries a))) =
      .list (items.map fun a => .object (pruneEntries (entries a))) := by
  have hobject : ∀ v ∈ items.map fun a => Json.object (entries a), (!v.isNull) = true := by
    intro v hv
    obtain ⟨a, -, rfl⟩ := List.mem_map.mp hv
    rfl
  rw [prune, pruneItems_eq, List.filter_eq_self.mpr hobject, List.map_map]
  rfl

end Json

namespace Schema

/-- The entry that a cell gives under a name: its text, or none if the cell is empty. -/
def cellEntry (name : String) (cell : Cell) : Json.Entries :=
  (cell.map fun text => (name, Json.text text)).toList

/-- The entry that a row's cells from a column on give under a name, if the first is filled: an
empty text and the texts of the filled cells. -/
def listEntry (name : String) (cells : List Cell) (column : Nat) : Json.Entries :=
  if (cellAt cells column).isSome then
    [(name, .list (("" :: (cells.drop column).reduceOption).map .text))]
  else []

/-- What a row tells about its field: the key, the filled attributes in column order and the list of
values. -/
def readRow (keyName : String) (keyColumn : Nat) (layout : Layout) (cells : List Cell) : Json :=
  .object (cellEntry keyName (cellAt cells keyColumn) ++
    (layout.attributes.flatMap fun a => cellEntry a.2 (cellAt cells a.1)) ++
    listEntry layout.valuesField cells layout.valuesColumn)

/-- Empty cells are pruned, filled ones stay. -/
theorem pruneEntries_cellValues (attributes : List (Nat × String)) (cells : List Cell) :
    Json.pruneEntries (attributes.map fun a => (a.2, Record.cellValue (cellAt cells a.1))) =
      attributes.flatMap fun a => cellEntry a.2 (cellAt cells a.1) := by
  induction attributes with
  | nil => rfl
  | cons a rest ih =>
    rw [List.map_cons, List.flatMap_cons, ← ih]
    -- the null of an empty cell goes, the text of a filled one stays
    cases h : cellAt cells a.1 with
    | none => simp [Json.pruneEntries, Record.cellValue, Json.isNull, cellEntry]
    | some text => simp [Json.pruneEntries, Record.cellValue, Json.isNull, Json.prune, cellEntry]

/-- A list of values stays as it is, and the null of a row without one is pruned. -/
theorem pruneEntries_asJson (name : String) (cells : List Cell) (column : Nat) :
    Json.pruneEntries [(name, ValueLists.asJson (ValueLists.ofCells cells column))] =
      listEntry name cells column := by
  cases h : cellAt cells column with
  | none =>
    simp [ValueLists.ofCells, listEntry, h, ValueLists.asJson, Json.pruneEntries, Json.isNull]
  | some flag =>
    have htexts := Json.pruneItems_map_text ("" :: (cells.drop column).filterMap id)
    have hcells : (cells.drop column).reduceOption = (cells.drop column).filterMap id := rfl
    simp only [ValueLists.ofCells, listEntry, h, Option.map_some, ValueLists.asJson,
      Json.pruneEntries, Json.isNull, Json.prune, htexts, hcells, Option.isSome_some, if_true,
      Bool.false_eq_true, if_false]

/-- **One row**: where the list of values has a name of its own, what is left of a joined record is
what its row tells. -/
theorem pruneEntries_joinedRow {layout : Layout} {row : CleanRow} {keyName : String}
    {keyColumn : Nat} (hnames : layout.fieldNames.Nodup) (hapart : layout.ValuesApart)
    (hname : layout.keyField = keyName) (hkey : cellAt row.cells keyColumn = some row.key) :
    Json.object (Json.pruneEntries (ValueLists.joinedRow layout row)) =
      readRow keyName keyColumn layout row.cells := by
  -- the key is filled, the attributes are pruned one by one, and the list stands behind them
  have hkeyEntry : ∀ rest : Json.Entries, Json.pruneEntries ((keyName, .text row.key) :: rest) =
      cellEntry keyName (cellAt row.cells keyColumn) ++ Json.pruneEntries rest := by
    intro rest
    simp [Json.pruneEntries, Json.isNull, Json.prune, cellEntry, hkey]
  rw [ValueLists.joinedRow_of_valuesApart hnames hapart, Record.ofRow_eq hnames, hname,
    Json.pruneEntries_append, hkeyEntry, pruneEntries_cellValues, pruneEntries_asJson]
  rfl

/-! ## §2 The document of a sheet -/

/-- A sheet that can be cleaned and has a layout has a document. -/
theorem descriptors_of_resolved {t : Table} {d : Dictionary} {key values : MappingEntry}
    {s : CleanSheet} {layout : Layout} (hs : CleanSheet.Cleaned t d key s)
    (hl : Layout.Resolved s d values layout) :
    descriptors t d = .ok (.list (s.rows.map fun row =>
      .object (Json.pruneEntries (ValueLists.joinedRow layout row)))) := by
  rw [descriptors, CleanSheet.ofTable_eq_ok_iff.mpr ⟨key, hs⟩]
  simp only [bind, Except.bind, Layout.resolve_eq_ok_iff.mpr ⟨values, hl⟩,
    ValueLists.attach_ofSheet hs hl, List.map_map]
  rw [← Json.prune_list_objects]
  rfl

/-- **Reading rows**: where the list of values has a name of its own, the schema document lists, in
the order of the sheet, what each row with a key but the first such row tells about its field. -/
theorem descriptors_eq_readRows {t : Table} {d : Dictionary} {s : CleanSheet} {layout : Layout}
    {document : Json} (hdocument : descriptors t d = .ok document)
    (hs : CleanSheet.ofTable t d = .ok s) (hl : Layout.resolve s d = .ok layout)
    (hapart : layout.ValuesApart) :
    ∃ key items, d.Holds Dictionary.keyRow key ∧
      LeftmostAt t.headers key.column s.keyColumn ∧
      layout.attributes.Pairwise (fun a b => a.1 < b.1) ∧
      document = .list items ∧
      items = ((t.rows.filter fun cells => (cellAt cells s.keyColumn).isSome).drop 1).map
        (readRow key.canonical s.keyColumn layout) ∧
      items.length = (t.rows.countP fun cells => (cellAt cells s.keyColumn).isSome) - 1 := by
  obtain ⟨key, hs⟩ := CleanSheet.ofTable_eq_ok_iff.mp hs
  obtain ⟨values, hl⟩ := Layout.resolve_eq_ok_iff.mp hl
  rw [descriptors_of_resolved hs hl] at hdocument
  refine ⟨key, _, hs.entry, hs.column, hl.attributes_pairwise, (Except.ok.inj hdocument).symm,
    ?_, ?_⟩
  · rw [← CleanSheet.map_cells_keyedRows, ← List.map_drop, ← hs.rows, List.map_map]
    -- both sides go over the surviving rows, so they are compared row by row
    refine List.map_congr_left fun row hrow => ?_
    exact pruneEntries_joinedRow hl.fieldNames_nodup hapart (hl.keyField_eq hs)
      (hs.cellAt_keyColumn hrow)
  · rw [List.length_map, hs.rows, List.length_drop, List.countP_eq_length_filter,
      ← CleanSheet.map_cells_keyedRows, List.length_map]

/-- The document of the small sheet, read row by row. -/
theorem descriptors_eq_readRows_fields :
    ∃ s layout key items,
      CleanSheet.ofTable CleanSheet.fieldTable (CleanSheet.siteDictionary "values") = .ok s ∧
      Layout.resolve s (CleanSheet.siteDictionary "values") = .ok layout ∧
      layout.ValuesApart ∧
      descriptors CleanSheet.fieldTable (CleanSheet.siteDictionary "values") =
        .ok (.list items) ∧
      items = ((CleanSheet.fieldTable.rows.filter fun cells =>
        (cellAt cells s.keyColumn).isSome).drop 1).map (readRow key s.keyColumn layout) ∧
      items =
        [.object [("key", .text "color"), ("description", .text "Sample color"),
            ("type", .text "str"), ("values", .list [.text "", .text "red", .text "blue"])],
          .object [("key", .text "size"), ("description", .text "Sample size"),
            ("type", .text "float"), ("unit", .text "mm")]] := by
  have hdocument :
      descriptors CleanSheet.fieldTable (CleanSheet.siteDictionary "values") =
        .ok (.list [.object [("key", .text "color"), ("description", .text "Sample color"),
            ("type", .text "str"), ("values", .list [.text "", .text "red", .text "blue"])],
          .object [("key", .text "size"), ("description", .text "Sample size"),
            ("type", .text "float"), ("unit", .text "mm")]]) := rfl
  have hs := CleanSheet.ofTable_fieldTable "values"
  have hl := Layout.resolve_fieldSheet "values"
  have hapart : (Layout.fieldLayout "values").ValuesApart := by decide
  obtain ⟨key, items, -, -, -, hlist, hitems, -⟩ :=
    descriptors_eq_readRows hdocument hs hl hapart
  have hsame := Json.list.inj hlist
  exact ⟨_, _, key.canonical, items, hs, hl, hapart, hsame ▸ hdocument, hitems, hsame.symm⟩

end Schema

end MetadataCatalog
