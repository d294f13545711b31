import MetadataCatalog.Proofs.Schema.Documents
import MetadataCatalog.Proofs.Sheet.NeatTables
import MetadataCatalog.Proofs.Sheet.Readings

/-!
# Neat documents

A value is neat when every text in it is, the names in its objects included, when nothing in it is
null, and when every list begins with the one empty text that stands for "no selection". A document
is a list of neat values. That goes through the stages from the workbook on: the table and the
dictionary are neat, hence the clean sheet and the layout, hence the records, in which empty cells
are null until they are pruned (`Workbook.descriptors_neat`).
-/

namespace MetadataCatalog

/-! ## §1 Neat values -/

namespace Json

/-- Every text is neat, nothing is null, and every list begins with the empty text, which stands
nowhere else. -/
inductive Neat : Json → Prop
  | boolean (b : Bool) : Neat (.boolean b)
  | integer (n : Int) : Neat (.integer n)
  | real (x : Float) : Neat (.real x)
  | text {s : String} (h : Text.IsNeat s) : Neat (.text s)
  | list {items : List Json} (h : ∀ v ∈ items, Neat v) : Neat (.list (.text "" :: items))
  | object {entries : Entries} (names : ∀ e ∈ entries, Text.IsNeat e.1)
      (values : ∀ e ∈ entries, Neat e.2) : Neat (.object entries)

theorem Neat.isNull_eq_false {v : Json} (h : v.Neat) : v.isNull = false := by
  cases h <;> rfl

/-- In a neat value there is nothing to prune. -/
theorem Neat.prune_eq {v : Json} (h : v.Neat) : v.prune = v := by
  -- on how the value is neat; no item and no entry is null, so none of them is left out
  induction h with
  | boolean | integer | real | text => rfl
  | @list items h ih =>
    have hkept : items.filter (!·.isNull) = items :=
      List.filter_eq_self.mpr fun v hv => by rw [(h v hv).isNull_eq_false]; rfl
    have hitems : pruneItems items = items := by
      rw [pruneItems_eq, hkept]
      exact (List.map_congr_left ih).trans (List.map_id items)
    rw [prune, pruneItems, hitems]
    rfl
  | @object entries _ h ih =>
    have hkept : entries.filter (!·.2.isNull) = entries :=
      List.filter_eq_self.mpr fun e he => by rw [(h e he).isNull_eq_false]; rfl
    rw [prune, pruneEntries_eq, hkept, List.map_congr_left fun e he => by rw [ih e he]]
    exact congrArg _ (List.map_id _)

/-- Values under neat names that are neat or null: what a record holds before it is pruned. -/
def Entries.IsNeat (entries : Entries) : Prop :=
  ∀ e ∈ entries, Text.IsNeat e.1 ∧ (e.2 = .null ∨ e.2.Neat)

theorem Entries.IsNeat.put {entries : Entries} (h : entries.IsNeat) {name : String} {value : Json}
    (hname : Text.IsNeat name) (hvalue : value = .null ∨ value.Neat) :
    (entries.put name value).IsNeat := by
  intro e he
  rcases mem_put he with he | rfl
  · exact h e he
  · exact ⟨hname, hvalue⟩

/-- Pruned, such entries make up a neat object. -/
theorem Entries.IsNeat.neat_prune {entries : Entries} (h : entries.IsNeat) :
    (Json.object (pruneEntries entries)).Neat := by
  have hleft : ∀ e ∈ pruneEntries entries, Text.IsNeat e.1 ∧ e.2.Neat := by
    intro e he
    rw [pruneEntries_eq] at he
    -- what is left was there before, with a value that is not null
    obtain ⟨old, hold, rfl⟩ := List.mem_map.mp he
    obtain ⟨hmem, hnull⟩ := List.mem_filter.mp hold
    obtain ⟨hname, hvalue | hvalue⟩ := h old hmem
    · rw [hvalue] at hnull
      cases hnull
    · exact ⟨hname, by rw [hvalue.prune_eq]; exact hvalue⟩
  exact .object (fun e he => (hleft e he).1) fun e he => (hleft e he).2

end Json

/-! ## §2 Dictionaries and sheets -/

/-- Every canonical name is empty or neat. -/
def Dictionary.IsNeat (d : Dictionary) : Prop :=
  ∀ row ∈ d.rows, row.canonical.IsNeat

theorem Dictionary.isNeat_ofTable {t : Table} (h : t.IsNeat) : (ofTable t).IsNeat := by
  intro row hrow
  obtain ⟨cells, hcells, rfl⟩ := List.mem_map.mp hrow
  exact isNeat_cellAt (h.cells cells hcells) 0

theorem Dictionary.IsNeat.of_holds {d : Dictionary} (h : d.IsNeat) {index : Nat} {e : MappingEntry}
    (he : d.Holds index e) : Text.IsNeat e.canonical :=
  h _ (List.mem_of_getElem? he) _ rfl

/-- A neat header has a neat attribute name. -/
theorem Dictionary.IsNeat.attributeName {d : Dictionary} (h : d.IsNeat) {header : String}
    (hheader : Text.IsNeat header) : Text.IsNeat (Layout.attributeName d header) := by
  unfold Layout.attributeName
  cases hname : d.canonicalFor? header with
  | none => exact hheader
  | some name =>
    -- the name stands in the row of the dictionary that has the header
    obtain ⟨row, hrow, hentry⟩ := List.exists_of_findSome?_eq_some hname
    obtain ⟨e, he, hsome⟩ := Option.bind_eq_some_iff.mp hentry
    obtain ⟨-, hsome⟩ := Option.ite_none_right_eq_some.mp hsome
    cases hsome
    rw [MappingRow.entry?_eq_some_iff.mp he] at hrow
    exact h _ hrow _ rfl

section Stages

variable {t : Table} {d : Dictionary} {key values : MappingEntry} {s : CleanSheet} {layout : Layout}

theorem CleanSheet.Cleaned.isNeat_headers (h : Cleaned t d key s) (ht : t.IsNeat) (hd : d.IsNeat) :
    ∀ header ∈ s.headers, Text.IsNeat header := by
  intro header hheader
  rw [h.headers] at hheader
  rcases List.mem_or_eq_of_mem_set hheader with hheader | rfl
  · exact ht.headers header hheader
  · exact hd.of_holds h.entry

/-- The key of a clean row is neat, and so are its cells. -/
theorem CleanSheet.Cleaned.isNeat_row (h : Cleaned t d key s) (ht : t.IsNeat) {row : CleanRow}
    (hrow : row ∈ s.rows) : Text.IsNeat row.key ∧ ∀ cell ∈ row.cells, Cell.IsNeat cell := by
  rw [h.rows] at hrow
  obtain ⟨i, hshows⟩ := mem_keyedRows_iff.mp (List.mem_of_mem_drop hrow)
  have hcells := ht.cells row.cells (List.mem_of_getElem? hshows.cells)
  exact ⟨isNeat_cellAt hcells s.keyColumn row.key hshows.key, hcells⟩

/-- The names that a layout gives. -/
structure Layout.IsNeat (layout : Layout) : Prop where
  keyField : Text.IsNeat layout.keyField
  attributes : ∀ a ∈ layout.attributes, Text.IsNeat a.2
  valuesField : Text.IsNeat layout.valuesField

theorem Layout.Resolved.isNeat (h : Resolved s d values layout)
    (hs : CleanSheet.Cleaned t d key s) (ht : t.IsNeat) (hd : d.IsNeat) : layout.IsNeat where
  keyField := by
    rw [h.keyField_eq hs]
    exact hd.of_holds hs.entry
  attributes := by
    rintro ⟨j, name⟩ ha
    obtain ⟨⟨-, -, -, header, hheader, rfl⟩, -⟩ := h.mem_attributes_iff.mp ha
    exact hd.attributeName (hs.isNeat_headers ht hd header (List.mem_of_getElem? hheader))
  valuesField := by
    rw [h.valuesField]
    exact hd.of_holds h.entry

end Stages

/-! ## §3 Records -/

theorem Record.neat_cellValue {cell : Cell} (h : cell.IsNeat) :
    cellValue cell = .null ∨ (cellValue cell).Neat := by
  cases cell with
  | none => exact .inl rfl
  | some s => exact .inr (.text (h s rfl))

theorem Record.isNeat_ofRow {layout : Layout} (hl : layout.IsNeat) {row : CleanRow}
    (hkey : Text.IsNeat row.key) (hcells : ∀ cell ∈ row.cells, Cell.IsNeat cell) :
    (ofRow layout row).IsNeat := by
  -- every attribute is put into a record that is neat already
  refine List.foldlRecOn (motive := Json.Entries.IsNeat) layout.attributes _ ?_ ?_
  · rintro e he
    rw [List.mem_singleton.mp he]
    exact ⟨hl.keyField, .inr (.text hkey)⟩
  · rintro record hrecord ⟨column, name⟩ ha
    exact hrecord.put (hl.attributes _ ha) (neat_cellValue (isNeat_cellAt hcells column))

/-- A list of values is the empty text and then neat texts. -/
theorem ValueLists.neat_asJson {cells : List Cell} (h : ∀ cell ∈ cells, Cell.IsNeat cell)
    (column : Nat) :
    asJson (ofCells cells column) = .null ∨ (asJson (ofCells cells column)).Neat := by
  unfold ofCells
  cases cellAt cells column with
  | none => exact .inl rfl
  | some flag =>
    refine .inr (.list fun v hv => ?_)
    obtain ⟨text, htext, rfl⟩ := List.mem_map.mp hv
    obtain ⟨cell, hcell, hsome⟩ := List.mem_filterMap.mp htext
    exact .text (h cell (List.mem_of_mem_drop hcell) text hsome)

theorem ValueLists.isNeat_joinedRow {layout : Layout} (hl : layout.IsNeat) {row : CleanRow}
    (hkey : Text.IsNeat row.key) (hcells : ∀ cell ∈ row.cells, Cell.IsNeat cell) :
    (joinedRow layout row).IsNeat :=
  (Record.isNeat_ofRow hl hkey hcells).put hl.valuesField (neat_asJson hcells _)

/-! ## §4 Documents -/

/-- The document of a neat table is a list of neat values. -/
theorem Schema.neat_of_descriptors {t : Table} {d : Dictionary} {document : Json} (ht : t.IsNeat)
    (hd : d.IsNeat) (h : descriptors t d = .ok document) :
    ∃ items, document = .list items ∧ ∀ v ∈ items, v.Neat := by
  obtain ⟨key, values, s, layout, hs, hl, rfl⟩ := exists_resolved_of_descriptors h
  refine ⟨_, rfl, fun v hv => ?_⟩
  obtain ⟨row, hrow, rfl⟩ := List.mem_map.mp hv
  obtain ⟨hkey, hcells⟩ := hs.isNeat_row ht hrow
  exact (ValueLists.isNeat_joinedRow (hl.isNeat hs ht hd) hkey hcells).neat_prune

namespace Workbook

/-- **Documents are neat**: in the schema document of a site, whatever its workbook holds, every
text and every name is trimmed and not empty and nothing is null, but that every list below the top
begins with the empty text. -/
theorem descriptors_neat {tree : Files} {w : Workbook} {site : String} {document : Json}
    (h : w.descriptors tree site = .ok document) :
    ∃ items, document = .list items ∧ ∀ v ∈ items, v.Neat := by
  -- the table and the dictionary are those of two sheets, both of which could be read
  obtain ⟨⟨t, d⟩, hsheet, h⟩ := exists_of_bind_eq_ok h
  obtain ⟨t', ht, hsheet⟩ := exists_of_bind_eq_ok hsheet
  obtain ⟨d', hd, hsheet⟩ := exists_of_bind_eq_ok hsheet
  cases hsheet
  have hd : d.IsNeat := by
    unfold dictionary at hd
    cases hdictionary : w.sheet tree Dictionary.sheetName with
    | error fault =>
      rw [hdictionary] at hd
      cases hd
    | ok table =>
      rw [hdictionary] at hd
      cases hd
      exact Dictionary.isNeat_ofTable (isNeat_of_sheet hdictionary)
  exact Schema.neat_of_descriptors (isNeat_of_sheet ht) hd h

/-- A schema with blanks around its texts, and with blank cells. -/
def paddedRows : List (List String) :=
  [[" metakey", "note  ", "values\t"], ["key of the field", " ", "permitted values"],
    ["color ", "  light", " red"], [" size", "\t", " "]]

theorem descriptors_neat_padded :
    (siteBook paddedRows).descriptors (siteBookTree paddedRows) "A" =
        .ok (.list [.object [("key", .text "color"), ("note", .text "light"),
            ("values", .list [.text "", .text "red"])], .object [("key", .text "size")]]) ∧
      ∃ items, Json.list [.object [("key", .text "color"), ("note", .text "light"),
          ("values", .list [.text "", .text "red"])], .object [("key", .text "size")]] =
        .list items ∧ ∀ v ∈ items, v.Neat := by
  have hdocument : (siteBook paddedRows).descriptors (siteBookTree paddedRows) "A" =
      .ok (.list [.object [("key", .text "color"), ("note", .text "light"),
        ("values", .list [.text "", .text "red"])], .object [("key", .text "size")]]) := rfl
  exact ⟨hdocument, descriptors_neat hdocument⟩

end Workbook

end MetadataCatalog
