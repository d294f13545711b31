import MetadataCatalog.Proofs.Schema.Attributes
import Mathlib.Data.List.Sort

/-!
# Layouts, column by column

What a layout takes from a clean sheet, said without the pass over the columns that makes it. A
leading column can be an attribute under its translated header unless it is the key or the values
column or bears the name of the key. Of the columns that can be an attribute of one name the
leftmost is the attribute, and no other column is one. `resolve_eq_ok_iff_laysOut` says that a clean
sheet has just one layout, the one described so.
-/

namespace MetadataCatalog

/-! ## §1 Translated headers -/

/-- The name of a header in the output. -/
inductive Dictionary.Translates (d : Dictionary) (header : String) : String → Prop where
  /-- The first entry with this column gives the name. -/
  | entered {index : Nat} {e : MappingEntry} (h : d.FirstFor header index e) :
      Translates d header e.canonical
  /-- A header that no entry has as its column is its own name. -/
  | untouched (h : ∀ index e, d.Holds index e → e.column ≠ header) : Translates d header header

namespace Layout

theorem translates_iff {d : Dictionary} {header name : String} :
    d.Translates header name ↔ attributeName d header = name := by
  constructor
  · intro h
    cases h with
    | entered h =>
      rw [attributeName, Dictionary.canonicalFor?_eq_some_iff.mpr ⟨_, _, h, rfl⟩]
      rfl
    | untouched h =>
      rw [attributeName, Dictionary.canonicalFor?_eq_none_iff.mpr h]
      rfl
  · rintro rfl
    cases hname : d.canonicalFor? header with
    | none =>
      rw [attributeName, hname]
      exact .untouched (Dictionary.canonicalFor?_eq_none_iff.mp hname)
    | some name =>
      obtain ⟨index, e, hfirst, rfl⟩ := Dictionary.canonicalFor?_eq_some_iff.mp hname
      rw [attributeName, hname]
      exact .entered hfirst

/-! ## §2 Columns that can be attributes -/

/-- Column `j` can be an attribute under the name `name`, beside the given key field and values
column. -/
structure Describes (s : CleanSheet) (d : Dictionary) (keyField : String) (valuesColumn j : Nat)
    (name : String) : Prop where
  leading : j < 8
  notKey : j ≠ s.keyColumn
  notValues : j ≠ valuesColumn
  named : ∃ header, s.headers[j]? = some header ∧ d.Translates header name
  free : name ≠ keyField

theorem describes_iff {s : CleanSheet} {d : Dictionary} {keyField : String} {valuesColumn j : Nat}
    {name : String} :
    Describes s d keyField valuesColumn j name ↔
      Candidate s d valuesColumn j name ∧ name ≠ keyField := by
  constructor
  · rintro ⟨hleading, hkey, hvalues, ⟨header, hheader, hname⟩, hfree⟩
    exact ⟨⟨hleading, hkey, hvalues, header, hheader, translates_iff.mp hname⟩, hfree⟩
  · rintro ⟨⟨hleading, hkey, hvalues, header, hheader, hname⟩, hfree⟩
    exact ⟨hleading, hkey, hvalues, ⟨header, hheader, translates_iff.mpr hname⟩, hfree⟩

/-- What the layout of a clean sheet is, `values` being the eighth entry of the dictionary. -/
structure LaysOut (s : CleanSheet) (d : Dictionary) (values : MappingEntry) (layout : Layout) :
    Prop where
  /-- The key field is the header of the key column. -/
  keyField : s.headers[s.keyColumn]? = some layout.keyField
  /-- The values column is the leftmost one under the header that the dictionary gives. -/
  valuesColumn : LeftmostAt s.headers values.column layout.valuesColumn
  valuesField : layout.valuesField = values.canonical
  /-- The attributes stand in column order. -/
  order : layout.attributes.Pairwise fun a b => a.1 < b.1
  /-- No two attributes bear one name. -/
  names : (layout.attributes.map Prod.snd).Nodup
  /-- The attributes are the columns that can be one, each the leftmost of its name. -/
  attributes : ∀ j name, (j, name) ∈ layout.attributes ↔
    Describes s d layout.keyField layout.valuesColumn j name ∧
      ∀ i < j, ¬ Describes s d layout.keyField layout.valuesColumn i name
  /-- Every column that can be an attribute is one, or one further left has its name. -/
  complete : ∀ j name, Describes s d layout.keyField layout.valuesColumn j name →
    ∃ i ≤ j, (i, name) ∈ layout.attributes

section LaysOut

variable {s : CleanSheet} {d : Dictionary} {values : MappingEntry} {layout layout' : Layout}

/-- A resolved layout is laid out so. -/
theorem Resolved.laysOut (h : Resolved s d values layout)
    (hkey : s.keyColumn < s.headers.length) : LaysOut s d values layout := by
  have hattributes : ∀ j name, (j, name) ∈ layout.attributes ↔
      Describes s d layout.keyField layout.valuesColumn j name ∧
        ∀ i < j, ¬ Describes s d layout.keyField layout.valuesColumn i name := by
    intro j name
    rw [h.mem_attributes_iff, describes_iff]
    constructor
    · rintro ⟨hcand, hfree, hleft⟩
      exact ⟨⟨hcand, hfree⟩, fun i hi hd => hleft i hi (describes_iff.mp hd).1⟩
    · rintro ⟨⟨hcand, hfree⟩, hleft⟩
      exact ⟨hcand, hfree, fun i hi hc => hleft i hi (describes_iff.mpr ⟨hc, hfree⟩)⟩
  refine ⟨?_, h.column, h.valuesField, h.attributes_pairwise, h.attribute_names_nodup,
    hattributes, fun j name hj => ?_⟩
  · rw [h.keyField, List.getD_eq_getElem?_getD, List.getElem?_eq_getElem hkey]
    rfl
  · -- the leftmost column of the name is the attribute
    classical
    have hex : ∃ i, Describes s d layout.keyField layout.valuesColumn i name := ⟨j, hj⟩
    exact ⟨Nat.find hex, Nat.find_min' hex hj,
      (hattributes _ _).mpr ⟨Nat.find_spec hex, fun i hi => Nat.find_min hex hi⟩⟩

/-- Two layouts of one sheet and one values entry are the same. -/
theorem LaysOut.unique (h : LaysOut s d values layout) (h' : LaysOut s d values layout') :
    layout = layout' := by
  have hkeyField : layout.keyField = layout'.keyField :=
    Option.some.inj (h.keyField.symm.trans h'.keyField)
  have hvaluesColumn : layout.valuesColumn = layout'.valuesColumn :=
    h.valuesColumn.unique h'.valuesColumn
  have hvaluesField : layout.valuesField = layout'.valuesField :=
    h.valuesField.trans h'.valuesField.symm
  -- both lists of attributes have the same members in the same order
  have hattributes : layout.attributes = layout'.attributes := by
    let left : Nat × String → Nat × String → Prop := fun a b => a.1 < b.1
    have hirrefl : Std.Irrefl left := ⟨fun a => Nat.lt_irrefl a.1⟩
    have hantisymm : Std.Antisymm left := ⟨fun a b hab hba => absurd hba (Nat.lt_asymm hab)⟩
    apply List.Pairwise.eq_of_mem_iff (r := left) h.order h'.order
    rintro ⟨j, name⟩
    rw [h.attributes, h'.attributes, hkeyField, hvaluesColumn]
  cases layout
  cases layout'
  rw [Layout.mk.injEq]
  exact ⟨hkeyField, hattributes, hvaluesColumn, hvaluesField⟩

end LaysOut

/-- **Layouts**: a clean sheet whose key column is there has a layout exactly when the dictionary
has an eighth entry and a column stands under its header, and then it is the one layout that takes
the leftmost column of each name. -/
theorem resolve_eq_ok_iff_laysOut {s : CleanSheet} (hkey : s.keyColumn < s.headers.length)
    (d : Dictionary) (layout : Layout) :
    resolve s d = .ok layout ↔
      ∃ values, d.Holds Dictionary.valuesRow values ∧ LaysOut s d values layout := by
  rw [resolve_eq_ok_iff]
  constructor
  · rintro ⟨values, h⟩
    exact ⟨values, h.entry, h.laysOut hkey⟩
  · rintro ⟨values, hentry, h⟩
    -- the sheet has a resolved layout, and there is only one
    obtain ⟨values', hresolved⟩ :=
      resolve_eq_ok_iff.mp (resolve_of_leftmostAt hentry h.valuesColumn)
    obtain rfl := hresolved.entry.unique hentry
    exact ⟨values', h.unique (hresolved.laysOut hkey) ▸ hresolved⟩

/-- A clean sheet with a repeated header, two headers of one name, a header that spells the name of
the key and one behind the leading columns. -/
def crowdedSheet : CleanSheet where
  headers := ["note", "key", "Text", "note", "description", "key", "values", "unit", "late"]
  keyColumn := 1
  rows := []

/-- A dictionary with a half-filled row and two names for one header. -/
def crowdedDictionary : Dictionary :=
  ⟨[⟨some "key", some "metakey"⟩, ⟨some "description", none⟩, ⟨some "description", some "Text"⟩,
    ⟨some "remark", some "Text"⟩, ⟨none, some "unit"⟩, ⟨some "type", some "type"⟩,
    ⟨some "group", some "group"⟩, ⟨some "values", some "values"⟩]⟩

/-- Of the eight leading columns of the crowded sheet three become attributes. -/
theorem resolve_eq_ok_iff_laysOut_crowded :
    crowdedSheet.keyColumn < crowdedSheet.headers.length ∧
      LaysOut crowdedSheet crowdedDictionary ⟨"values", "values"⟩
        ⟨"key", [(0, "note"), (2, "description"), (7, "unit")], 6, "values"⟩ := by
  have hkey : crowdedSheet.keyColumn < crowdedSheet.headers.length := by decide
  have hresolve : resolve crowdedSheet crowdedDictionary =
      .ok ⟨"key", [(0, "note"), (2, "description"), (7, "unit")], 6, "values"⟩ := rfl
  obtain ⟨values, hvalues, h⟩ :=
    (resolve_eq_ok_iff_laysOut hkey crowdedDictionary _).mp hresolve
  have hentry : crowdedDictionary.Holds Dictionary.valuesRow ⟨"values", "values"⟩ := rfl
  rw [← hentry.unique hvalues] at h
  exact ⟨hkey, h⟩

end Layout

end MetadataCatalog
