import MetadataCatalog.Proofs.Schema.Attributes
import MetadataCatalog.Schema.ValueLists
import Mathlib.Data.List.Forall2

/-!
# Joining lists of values to records

The records of a clean sheet, and what becomes of them when the lists of permitted values are
joined to them. A record has the name of the key and the names of the attributes, all different, so
nothing in it is put over anything else. The list of values goes behind them when its own name is
none of these (`Layout.ValuesApart`); otherwise it takes the place of the entry of that name.
-/

namespace MetadataCatalog

/-! ## §1 Names of a record -/

/-- The names of a record: that of the key, then those of the attributes. -/
def Layout.fieldNames (layout : Layout) : List String :=
  layout.keyField :: layout.attributes.map Prod.snd

/-- The list of values has a name of its own. -/
def Layout.ValuesApart (layout : Layout) : Prop :=
  layout.valuesField ∉ layout.fieldNames

instance (layout : Layout) : Decidable layout.ValuesApart :=
  inferInstanceAs (Decidable (layout.valuesField ∉ layout.fieldNames))

section Names

variable {t : Table} {s : CleanSheet} {d : Dictionary} {key values : MappingEntry}
  {layout : Layout}

theorem Layout.Resolved.fieldNames_nodup (h : Layout.Resolved s d values layout) :
    layout.fieldNames.Nodup := by
  refine List.nodup_cons.mpr ⟨fun hmem => ?_, h.attribute_names_nodup⟩
  exact (h.mem_attribute_names_iff.mp hmem).1 rfl

/-- The key is emitted under its canonical name. -/
theorem Layout.Resolved.keyField_eq (h : Layout.Resolved s d values layout)
    (hs : CleanSheet.Cleaned t d key s) : layout.keyField = key.canonical := by
  rw [h.keyField, List.getD_eq_getElem?_getD, hs.header_keyColumn]
  rfl

/-- The list of values has a name of its own exactly when the dictionary gives it another name than
the key and no leading column has that name. -/
theorem Layout.Resolved.valuesApart_iff (h : Layout.Resolved s d values layout)
    (hs : CleanSheet.Cleaned t d key s) :
    layout.ValuesApart ↔ values.canonical ≠ key.canonical ∧
      ∀ j, ¬ Layout.Candidate s d layout.valuesColumn j values.canonical := by
  rw [Layout.ValuesApart, Layout.fieldNames, List.mem_cons, h.mem_attribute_names_iff,
    h.keyField_eq hs, h.valuesField, not_or]
  constructor
  · rintro ⟨hne, hnot⟩
    exact ⟨hne, fun j hj => hnot ⟨hne, j, hj⟩⟩
  · rintro ⟨hne, hnot⟩
    exact ⟨hne, fun ⟨_, j, hj⟩ => hnot j hj⟩

end Names

/-! ## §2 Records -/

namespace Record

/-- Values put under new and different names go to the end one after the other. -/
theorem foldl_put_eq_append {attributes : List (Nat × String)} (value : Nat × String → Json)
    {entries : Json.Entries} (hnodup : (attributes.map Prod.snd).Nodup)
    (hnew : ∀ a ∈ attributes, a.2 ∉ entries.names) :
    attributes.foldl (fun record a => Json.Entries.put a.2 (value a) record) entries =
      entries ++ attributes.map fun a => (a.2, value a) := by
  induction attributes generalizing entries with
  | nil => simp
  | cons a rest ih =>
    obtain ⟨hne, hrest⟩ := List.nodup_cons.mp hnodup
    rw [List.foldl_cons, Json.Entries.put_of_not_mem (hnew a List.mem_cons_self), ih hrest]
    · simp
    -- the name just put is none of the names still to come
    · intro b hb hmem
      simp only [Json.Entries.names, List.map_append, List.mem_append, List.map_cons,
        List.map_nil, List.mem_singleton] at hmem
      rcases hmem with hmem | hmem
      · exact hnew b (List.mem_cons_of_mem _ hb) hmem
      · exact hne (hmem ▸ List.mem_map_of_mem hb)

/-- A record holds the key and then a value for each attribute. -/
theorem ofRow_eq {layout : Layout} (h : layout.fieldNames.Nodup) (row : CleanRow) :
    ofRow layout row =
      (layout.keyField, .text row.key) ::
        layout.attributes.map fun a => (a.2, cellValue (cellAt row.cells a.1)) := by
  obtain ⟨hkey, hnodup⟩ := List.nodup_cons.mp h
  refine foldl_put_eq_append (fun a => cellValue (cellAt row.cells a.1)) hnodup fun a ha hmem => ?_
  have hname : a.2 = layout.keyField := List.mem_singleton.mp hmem
  exact hkey (hname ▸ List.mem_map_of_mem ha)

theorem names_ofRow {layout : Layout} (h : layout.fieldNames.Nodup) (row : CleanRow) :
    (ofRow layout row).names = layout.fieldNames := by
  rw [ofRow_eq h, Json.Entries.names, List.map_cons, List.map_map]
  rfl

/-- The key of a row is found in its record. -/
theorem get?_keyField_ofRow {layout : Layout} (h : layout.fieldNames.Nodup) (row : CleanRow) :
    (ofRow layout row).get? layout.keyField = some (.text row.key) := by
  rw [ofRow_eq h, Json.Entries.get?, if_pos rfl]

end Record

/-- Putting a value under a name that is there changes no name. -/
theorem Json.Entries.names_put_of_mem {name : String} {entries : Json.Entries}
    (h : name ∈ entries.names) (value : Json) :
    (entries.put name value).names = entries.names := by
  induction entries with
  | nil => cases h
  | cons e rest ih =>
    obtain ⟨k, v⟩ := e
    by_cases hk : k = name
    · simp [Json.Entries.put, Json.Entries.names, hk]
    · rw [Json.Entries.names, List.map_cons, List.mem_cons] at h
      have hrest := ih (h.resolve_left (Ne.symm hk))
      rw [Json.Entries.names, Json.Entries.names] at hrest
      simp [Json.Entries.put, Json.Entries.names, hk, hrest]

namespace ValueLists

/-! ## §3 Joining -/

/-- Where keys are different, the row with a row's key is that row. -/
theorem rowOf?_of_mem {s : CleanSheet} (h : (s.rows.map CleanRow.key).Nodup) {row : CleanRow}
    (hrow : row ∈ s.rows) : rowOf? s row.key = some row := by
  -- the search begins at the last row, but there is only one row to find
  cases hfind : rowOf? s row.key with
  | none =>
    have hnone := List.find?_eq_none.mp hfind row (List.mem_reverse.mpr hrow)
    simp at hnone
  | some found =>
    have hkey : found.key = row.key := by simpa using List.find?_some hfind
    have hmem : found ∈ s.rows := List.mem_reverse.mp (List.mem_of_find?_eq_some hfind)
    rw [List.inj_on_of_nodup_map h hmem hrow hkey]

/-- The record of a row with the list of values of that same row. -/
def joinedRow (layout : Layout) (row : CleanRow) : Record :=
  (Record.ofRow layout row).put layout.valuesField
    (asJson (ofCells row.cells layout.valuesColumn))

theorem attachOne_ofRow {s : CleanSheet} {layout : Layout}
    (hkeys : (s.rows.map CleanRow.key).Nodup) (hnames : layout.fieldNames.Nodup)
    {row : CleanRow} (hrow : row ∈ s.rows) (position : Nat) :
    attachOne s layout position (Record.ofRow layout row) = .ok (joinedRow layout row) := by
  rw [attachOne, Record.get?_keyField_ofRow hnames]
  simp only [Option.bind_some, Json.text?, rowOf?_of_mem hkeys hrow, joinedRow]

/-- Records that can be joined wherever they stand are all joined, and those behind them are
reached. -/
theorem attachFrom_map_append {α : Type} {s : CleanSheet} {layout : Layout} {items : List α}
    {record joined : α → Record}
    (h : ∀ a ∈ items, ∀ position,
      attachOne s layout position (record a) = .ok (joined a)) (rest : List Record)
    (position : Nat) :
    attachFrom s layout position (items.map record ++ rest) =
      (items.map joined ++ (attachFrom s layout (position + items.length) rest).1,
        (attachFrom s layout (position + items.length) rest).2) := by
  induction items generalizing position with
  | nil => rfl
  | cons a more ih =>
    -- the position only matters for a report, so the others are joined from the next one on
    have hmore := ih (fun b hb => h b (List.mem_cons_of_mem _ hb)) (position + 1)
    have hlength : position + (a :: more).length = position + 1 + more.length := by
      rw [List.length_cons]
      omega
    rw [List.map_cons, List.cons_append, attachFrom, h a List.mem_cons_self, hlength]
    simp only [hmore, List.map_cons, List.cons_append]

/-- Where each record can be joined, all are. -/
theorem attach_map {α : Type} {s : CleanSheet} {layout : Layout} {items : List α}
    {record joined : α → Record}
    (h : ∀ a ∈ items, ∀ position,
      attachOne s layout position (record a) = .ok (joined a)) :
    attach s layout (items.map record) = (items.map joined, none) := by
  have hrun := attachFrom_map_append h [] 0
  rw [List.append_nil] at hrun
  rw [attach, hrun]
  simp [attachFrom]

/-- **Joining**: the records of a clean sheet are all joined, each to the list of values of the row
it was made of. -/
theorem attach_ofSheet {t : Table} {d : Dictionary} {key values : MappingEntry} {s : CleanSheet}
    {layout : Layout} (hs : CleanSheet.Cleaned t d key s)
    (hl : Layout.Resolved s d values layout) :
    attach s layout (Record.ofSheet s layout) = (s.rows.map (joinedRow layout), none) :=
  attach_map fun _ hrow => attachOne_ofRow hs.keys_nodup hl.fieldNames_nodup hrow

theorem joinedRow_of_valuesApart {layout : Layout} (hnames : layout.fieldNames.Nodup)
    (h : layout.ValuesApart) (row : CleanRow) :
    joinedRow layout row = Record.ofRow layout row ++
      [(layout.valuesField, asJson (ofCells row.cells layout.valuesColumn))] := by
  -- a name that the record does not have goes to its end
  refine Json.Entries.put_of_not_mem ?_
  rw [Record.names_ofRow hnames]
  exact h

theorem names_joinedRow_of_not_valuesApart {layout : Layout} (hnames : layout.fieldNames.Nodup)
    (h : ¬ layout.ValuesApart) (row : CleanRow) :
    (joinedRow layout row).names = (Record.ofRow layout row).names := by
  refine Json.Entries.names_put_of_mem ?_ _
  rw [Record.names_ofRow hnames]
  exact not_not.mp h

/-! ## §4 What joining keeps -/

/-- `attached` is `record` with one more entry at its end: a list of values, or null, under the given
name. -/
def Extends (name : String) (record attached : Record) : Prop :=
  ∃ list : Option (List String), attached = record ++ [(name, asJson list)]

/-- `attached` has the names of `record`, under one of them a list of values, or null, and under the
others what `record` has. -/
def Overwrites (name : String) (record attached : Record) : Prop :=
  attached.names = record.names ∧ name ∈ record.names ∧
    (∃ list : Option (List String), attached.get? name = some (asJson list)) ∧
    ∀ other, other ≠ name → attached.get? other = record.get? other

/-- **What joining keeps**: the records of a cleaned sheet are all joined. If the dictionary gives
the list of values another name than the key and no leading column has that name, each record keeps
its entries and gets the list behind them. If not, no record gets a new entry: the entry of that
name, be it the key or an attribute, is overwritten by the list or by null. -/
theorem attach_extends_or_overwrites {t : Table} {d : Dictionary} {s : CleanSheet}
    {layout : Layout} (hs : CleanSheet.ofTable t d = .ok s)
    (hl : Layout.resolve s d = .ok layout) :
    ∃ key values joined, d.Holds Dictionary.keyRow key ∧ d.Holds Dictionary.valuesRow values ∧
      attach s layout (Record.ofSheet s layout) = (joined, none) ∧
      (layout.ValuesApart ↔ values.canonical ≠ key.canonical ∧
        ∀ j, ¬ Layout.Candidate s d layout.valuesColumn j values.canonical) ∧
      (layout.ValuesApart →
        List.Forall₂ (Extends layout.valuesField) (Record.ofSheet s layout) joined) ∧
      (¬ layout.ValuesApart →
        List.Forall₂ (Overwrites layout.valuesField) (Record.ofSheet s layout) joined) := by
  obtain ⟨key, hs⟩ := CleanSheet.ofTable_eq_ok_iff.mp hs
  obtain ⟨values, hl⟩ := Layout.resolve_eq_ok_iff.mp hl
  refine ⟨key, values, s.rows.map (joinedRow layout), hs.entry, hl.entry, attach_ofSheet hs hl,
    hl.valuesApart_iff hs, fun hapart => ?_, fun hclash => ?_⟩
  · rw [Record.ofSheet, List.forall₂_map_left_iff, List.forall₂_map_right_iff, List.forall₂_same]
    intro row _
    exact ⟨_, joinedRow_of_valuesApart hl.fieldNames_nodup hapart row⟩
  · rw [Record.ofSheet, List.forall₂_map_left_iff, List.forall₂_map_right_iff, List.forall₂_same]
    intro row _
    refine ⟨names_joinedRow_of_not_valuesApart hl.fieldNames_nodup hclash row, ?_,
      ⟨_, Json.Entries.get?_put_self _ _ _⟩, fun other hne => Json.Entries.get?_put_of_ne hne _ _⟩
    rw [Record.names_ofRow hl.fieldNames_nodup]
    exact not_not.mp hclash

/-- On the small sheet the lists have a name of their own. -/
theorem attach_extends_fields :
    ∃ s layout, CleanSheet.ofTable CleanSheet.fieldTable (CleanSheet.siteDictionary "values") =
        .ok s ∧
      Layout.resolve s (CleanSheet.siteDictionary "values") = .ok layout ∧
      layout.ValuesApart ∧
      ∃ joined, attach s layout (Record.ofSheet s layout) = (joined, none) ∧
        List.Forall₂ (Extends layout.valuesField) (Record.ofSheet s layout) joined := by
  have hs := CleanSheet.ofTable_fieldTable "values"
  have hl := Layout.resolve_fieldSheet "values"
  have hapart : (Layout.fieldLayout "values").ValuesApart := by decide
  obtain ⟨-, -, joined, -, -, hattach, -, hextends, -⟩ := attach_extends_or_overwrites hs hl
  exact ⟨_, _, hs, hl, hapart, joined, hattach, hextends hapart⟩

/-- A sheet with one field that lists no values. -/
def plainTable : Table :=
  Table.ofRows
    [[some "metakey", some "description", some "values"],
      [some "key of the field"],
      [some "size", some "Sample size"]]

/-- **A lost key**: where the dictionary gives the list of values the name of the key, the key of a
row that lists no values is overwritten by null. -/
theorem attach_overwrites_key :
    ∃ s layout,
      CleanSheet.ofTable plainTable (CleanSheet.siteDictionary "key") = .ok s ∧
      Layout.resolve s (CleanSheet.siteDictionary "key") = .ok layout ∧
      Record.ofSheet s layout =
        [[("key", .text "size"), ("description", .text "Sample size")]] ∧
      attach s layout (Record.ofSheet s layout) =
        ([[("key", .null), ("description", .text "Sample size")]], none) :=
  ⟨⟨["key", "description", "values"], 0, [⟨3, "size", [some "size", some "Sample size", none]⟩]⟩,
    ⟨"key", [(1, "description")], 2, "key"⟩, rfl, rfl, rfl, rfl⟩

end ValueLists

end MetadataCatalog
