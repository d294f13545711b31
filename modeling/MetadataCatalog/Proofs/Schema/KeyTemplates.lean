import MetadataCatalog.Proofs.Schema.Obstacles

/-!
# Key templates

The key template of a sheet and its schema document are made from the same clean sheet, the one out
of its keys alone, the other by way of records, joined lists and pruning. They name the same fields:
the template lists the keys that the descriptors have, each once and in the same order, as long as
the dictionary does not give the lists of values the name of the key. And the template never fails
alone.
-/

namespace MetadataCatalog.Schema

variable {t : Table} {d : Dictionary} {key values : MappingEntry} {s : CleanSheet} {layout : Layout}

/-! ## §1 The two documents of a clean sheet -/

/-- A clean sheet has a key template, with one entry for each of its rows. -/
theorem keyTemplate_of_cleaned (hs : CleanSheet.Cleaned t d key s) :
    keyTemplate t d = .ok (.object (s.keys.map fun k => (k, .null))) := by
  have hnames : Json.Entries.names (s.keys.map fun k => (k, Json.null)) = s.keys := by
    rw [Json.Entries.names, List.map_map]
    exact List.map_id' s.keys
  -- the keys are different, so no entry is put over another one
  have hmerge : Json.Entries.merge (s.keys.map fun k => (k, .null)) =
      s.keys.map fun k => (k, .null) := by
    refine Json.Entries.merge_of_nodup ?_
    rw [hnames]
    exact hs.keys_nodup
  rw [keyTemplate, CleanSheet.ofTable_eq_ok_iff.mpr ⟨key, hs⟩]
  simp only [bind, Except.bind, hmerge]

/-- A sheet without a key template cannot be cleaned. -/
theorem ofTable_of_keyTemplate_error {f : Fault} (h : keyTemplate t d = .error f) :
    CleanSheet.ofTable t d = .error f := by
  unfold keyTemplate at h
  cases hs : CleanSheet.ofTable t d with
  | error g =>
    rw [hs] at h
    cases h
    rfl
  | ok s =>
    rw [hs] at h
    cases h

/-- A sheet with a schema document can be cleaned and has a layout. -/
theorem exists_resolved_of_descriptors {document : Json} (h : descriptors t d = .ok document) :
    ∃ key values s layout, CleanSheet.Cleaned t d key s ∧ Layout.Resolved s d values layout ∧
      document = .list (s.rows.map fun row =>
        .object (Json.pruneEntries (ValueLists.joinedRow layout row))) := by
  cases hs : CleanSheet.ofTable t d with
  | error f =>
    rw [descriptors_of_ofTable_error hs] at h
    cases h
  | ok s =>
    cases hl : Layout.resolve s d with
    | error f =>
      rw [descriptors_of_resolve_error hs hl] at h
      cases h
    | ok layout =>
      obtain ⟨key, hcleaned⟩ := CleanSheet.ofTable_eq_ok_iff.mp hs
      obtain ⟨values, hresolved⟩ := Layout.resolve_eq_ok_iff.mp hl
      rw [descriptors_of_resolved hcleaned hresolved] at h
      exact ⟨key, values, s, layout, hcleaned, hresolved, (Except.ok.inj h).symm⟩

/-! ## §2 Keys of descriptors -/

/-- Where the list of values does not have the name of the key, the key of a row is what its
descriptor has under that name, whatever the list is put over. -/
theorem get?_keyField_joinedRow (hnames : layout.fieldNames.Nodup)
    (hne : layout.valuesField ≠ layout.keyField) (row : CleanRow) :
    Json.Entries.get? layout.keyField (Json.pruneEntries (ValueLists.joinedRow layout row)) =
      some (.text row.key) := by
  -- the key stands in front, before and after the list is put into the record
  obtain ⟨rest, hrest⟩ : ∃ rest, ValueLists.joinedRow layout row =
      (layout.keyField, .text row.key) :: rest := by
    rw [ValueLists.joinedRow, Record.ofRow_eq hnames, Json.Entries.put, if_neg hne.symm]
    exact ⟨_, rfl⟩
  rw [hrest]
  simp only [Json.pruneEntries, Json.isNull, Json.prune, Bool.false_eq_true, if_false,
    Json.Entries.get?, if_true]

/-- The fields of a schema document have the given keys under a name, one each and in order. -/
def HaveKeys (name : String) (fields : List Json.Entries) (keys : List String) : Prop :=
  List.Forall₂ (fun field k => field.get? name = some (.text k)) fields keys

theorem haveKeys_joinedRows (hnames : layout.fieldNames.Nodup)
    (hne : layout.valuesField ≠ layout.keyField) (rows : List CleanRow) :
    HaveKeys layout.keyField
      (rows.map fun row => Json.pruneEntries (ValueLists.joinedRow layout row))
      (rows.map CleanRow.key) := by
  rw [HaveKeys, List.forall₂_map_left_iff, List.forall₂_map_right_iff, List.forall₂_same]
  exact fun row _ => get?_keyField_joinedRow hnames hne row

/-! ## §3 Agreement -/

/-- **The template lists the keys of the descriptors.** Where the dictionary does not give the lists
of values the name of the key, a sheet with a schema document has a key template, and its names are
the keys of the descriptors: one each, in the same order and all different, each with the value null.
A sheet without a key template has no schema document either, for the same reason. -/
theorem keyTemplate_lists_keys
    (hapart : ∀ key values, d.Holds Dictionary.keyRow key → d.Holds Dictionary.valuesRow values →
      key.canonical ≠ values.canonical) :
    (∀ document, descriptors t d = .ok document →
      ∃ key fields keys, d.Holds Dictionary.keyRow key ∧
        document = .list (fields.map .object) ∧ HaveKeys key.canonical fields keys ∧
        keys.Nodup ∧ keyTemplate t d = .ok (.object (keys.map fun k => (k, .null)))) ∧
      ∀ f, keyTemplate t d = .error f → descriptors t d = .error f := by
  constructor
  · intro document hdocument
    obtain ⟨key, values, s, layout, hs, hl, rfl⟩ := exists_resolved_of_descriptors hdocument
    have hne : layout.valuesField ≠ layout.keyField := by
      rw [hl.keyField_eq hs, hl.valuesField]
      exact (hapart key values hs.entry hl.entry).symm
    refine ⟨key, s.rows.map fun row => Json.pruneEntries (ValueLists.joinedRow layout row),
      s.keys, hs.entry, ?_, ?_, hs.keys_nodup, keyTemplate_of_cleaned hs⟩
    · rw [List.map_map]
      rfl
    · rw [← hl.keyField_eq hs]
      exact haveKeys_joinedRows hl.fieldNames_nodup hne s.rows
  · intro f hf
    exact descriptors_of_ofTable_error (ofTable_of_keyTemplate_error hf)

/-- The template of the small sheet lists the keys of its two fields. -/
theorem keyTemplate_lists_keys_fields :
    (∀ key values, (CleanSheet.siteDictionary "values").Holds Dictionary.keyRow key →
      (CleanSheet.siteDictionary "values").Holds Dictionary.valuesRow values →
      key.canonical ≠ values.canonical) ∧
    ∃ fields, descriptors CleanSheet.fieldTable (CleanSheet.siteDictionary "values") =
        .ok (.list (fields.map .object)) ∧
      HaveKeys "key" fields ["color", "size"] ∧
      keyTemplate CleanSheet.fieldTable (CleanSheet.siteDictionary "values") =
        .ok (.object [("color", .null), ("size", .null)]) := by
  have hkeyEntry : (CleanSheet.siteDictionary "values").Holds Dictionary.keyRow
      ⟨"key", "metakey"⟩ := rfl
  have hvaluesEntry : (CleanSheet.siteDictionary "values").Holds Dictionary.valuesRow
      ⟨"values", "values"⟩ := rfl
  have hapart : ∀ key values, (CleanSheet.siteDictionary "values").Holds Dictionary.keyRow key →
      (CleanSheet.siteDictionary "values").Holds Dictionary.valuesRow values →
      key.canonical ≠ values.canonical := by
    intro key values hkey hvalues
    rw [← hkeyEntry.unique hkey, ← hvaluesEntry.unique hvalues]
    decide
  have hdocument : ∃ document, descriptors CleanSheet.fieldTable
      (CleanSheet.siteDictionary "values") = .ok document := ⟨_, rfl⟩
  have htemplate : keyTemplate CleanSheet.fieldTable (CleanSheet.siteDictionary "values") =
      .ok (.object [("color", .null), ("size", .null)]) := rfl
  obtain ⟨document, hdocument⟩ := hdocument
  obtain ⟨key, fields, keys, hkey, rfl, hkeys, -, hlists⟩ :=
    (keyTemplate_lists_keys hapart).1 document hdocument
  -- the keys are read off the template
  rw [htemplate] at hlists
  have hnames := congrArg Json.Entries.names (Json.object.inj (Except.ok.inj hlists))
  have hsame : ["color", "size"] = keys := by
    simpa [Json.Entries.names, Function.comp_def] using hnames
  rw [← hkeyEntry.unique hkey, ← hsame] at hkeys
  exact ⟨hapart, fields, hdocument, hkeys, htemplate⟩

end MetadataCatalog.Schema
