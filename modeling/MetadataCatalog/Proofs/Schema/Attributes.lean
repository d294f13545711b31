import MetadataCatalog.Proofs.Schema.Cleaning
import MetadataCatalog.Schema.Layout
import Mathlib.Data.Nat.Find

/-!
# The attributes of a layout

Which leading columns of a clean sheet become attributes. A column is a candidate when it is among
the leading columns and is neither the key nor the values column; the attributes are the leftmost
candidates of their names, less those that bear the name of the key. `resolve_eq_ok_iff` says what
a layout is made of and `Resolved.mem_attributes_iff` finds every attribute in the sheet.
-/

namespace MetadataCatalog.Layout

/-! ## §1 Candidates -/

/-- Column `j` is a leading column beside the key and the values column, with the attribute name
`name`. -/
def Candidate (s : CleanSheet) (d : Dictionary) (valuesColumn j : Nat) (name : String) : Prop :=
  j < descriptorColumns ∧ j ≠ s.keyColumn ∧ j ≠ valuesColumn ∧
    ∃ header, s.headers[j]? = some header ∧ attributeName d header = name

theorem mem_candidates_iff {s : CleanSheet} {d : Dictionary} {valuesColumn j : Nat}
    {name : String} :
    (j, name) ∈ candidates s d valuesColumn ↔ Candidate s d valuesColumn j name := by
  simp only [candidates, List.mem_filterMap, Prod.exists, List.mk_mem_zipIdx_iff_getElem?,
    Candidate]
  constructor
  · rintro ⟨header, i, hheader, hif⟩
    split at hif
    · cases hif
    · rename_i hne
      obtain ⟨rfl, rfl⟩ := Prod.mk.inj (Option.some.inj hif)
      -- a column that is numbered at all is a leading one
      have hlt : i < descriptorColumns := by
        obtain ⟨hlen, -⟩ := List.getElem?_eq_some_iff.mp hheader
        exact Nat.lt_of_lt_of_le hlen (List.length_take_le _ _)
      rw [List.getElem?_take_of_lt hlt] at hheader
      exact ⟨hlt, fun h => hne (Or.inl h), fun h => hne (Or.inr h), header, hheader, rfl⟩
  · rintro ⟨hlt, hkey, hvalues, header, hheader, rfl⟩
    refine ⟨header, j, ?_, ?_⟩
    · rw [List.getElem?_take_of_lt hlt]
      exact hheader
    · rw [if_neg (not_or.mpr ⟨hkey, hvalues⟩)]

/-- Candidates stand in column order. -/
theorem candidates_pairwise (s : CleanSheet) (d : Dictionary) (valuesColumn : Nat) :
    (candidates s d valuesColumn).Pairwise (fun a b => a.1 < b.1) := by
  refine List.Pairwise.filterMap _ ?_ (zipIdx_pairwise_lt _)
  rintro ⟨header, i⟩ ⟨header', j⟩ hij a ha b hb
  dsimp only at ha hb
  split at ha
  · cases ha
  · split at hb
    · cases hb
    · cases ha
      cases hb
      exact hij

/-! ## §2 First of each name -/

theorem distinct_sublist (taken : List String) (columns : List (Nat × String)) :
    (distinct taken columns).Sublist columns := by
  induction columns generalizing taken with
  | nil => exact List.Sublist.refl _
  | cons a rest ih =>
    obtain ⟨j, name⟩ := a
    rw [distinct]
    split
    · exact (ih taken).cons _
    · exact (ih (name :: taken)).cons_cons _

/-- A column is taken over exactly when its name is new: neither taken before nor the name of a
column further left. -/
theorem mem_distinct_iff {taken : List String} {columns : List (Nat × String)}
    (h : columns.Pairwise fun a b => a.1 < b.1) {a : Nat × String} :
    a ∈ distinct taken columns ↔
      a ∈ columns ∧ a.2 ∉ taken ∧ ∀ b ∈ columns, b.1 < a.1 → b.2 ≠ a.2 := by
  induction columns generalizing taken with
  | nil => simp [distinct]
  | cons first rest ih =>
    obtain ⟨j, name⟩ := first
    obtain ⟨hfirst, hrest⟩ := List.pairwise_cons.mp h
    rw [distinct]
    split
    · rename_i htaken
      -- the first column is passed over; its name is taken, so it is no column's in `hnew`
      rw [ih hrest]
      constructor
      · rintro ⟨ha, hnew, hleft⟩
        refine ⟨List.mem_cons_of_mem _ ha, hnew, fun b hb hlt => ?_⟩
        rcases List.mem_cons.mp hb with rfl | hb
        · intro heq
          exact hnew (heq ▸ htaken)
        · exact hleft b hb hlt
      · rintro ⟨ha, hnew, hleft⟩
        rcases List.mem_cons.mp ha with rfl | ha
        · exact absurd htaken hnew
        · exact ⟨ha, hnew, fun b hb => hleft b (List.mem_cons_of_mem _ hb)⟩
    · rename_i htaken
      -- the first column is taken over, and its name is taken for those further right
      rw [List.mem_cons, ih hrest]
      constructor
      · rintro (rfl | ⟨ha, hnew, hleft⟩)
        · refine ⟨List.mem_cons_self, htaken, fun b hb hlt => ?_⟩
          rcases List.mem_cons.mp hb with rfl | hb
          · exact absurd hlt (Nat.lt_irrefl _)
          · exact absurd (hfirst b hb) (Nat.lt_asymm hlt)
        · obtain ⟨hne, hnew⟩ := not_or.mp (fun hor => hnew (List.mem_cons.mpr hor))
          refine ⟨List.mem_cons_of_mem _ ha, hnew, fun b hb hlt => ?_⟩
          rcases List.mem_cons.mp hb with rfl | hb
          · exact Ne.symm hne
          · exact hleft b hb hlt
      · rintro ⟨ha, hnew, hleft⟩
        rcases List.mem_cons.mp ha with rfl | ha
        · exact Or.inl rfl
        · have hne : name ≠ a.2 := hleft (j, name) List.mem_cons_self (hfirst a ha)
          refine Or.inr ⟨ha, ?_, fun b hb => hleft b (List.mem_cons_of_mem _ hb)⟩
          rw [List.mem_cons, not_or]
          exact ⟨Ne.symm hne, hnew⟩

/-- No name is taken over twice. -/
theorem distinct_names_nodup {taken : List String} {columns : List (Nat × String)}
    (h : columns.Pairwise fun a b => a.1 < b.1) :
    ((distinct taken columns).map Prod.snd).Nodup := by
  have hsorted := h.sublist (distinct_sublist taken columns)
  rw [List.Nodup, List.pairwise_map]
  refine hsorted.imp_of_mem fun {a b} ha hb hlt => ?_
  -- of two columns of one name the right one would not have been taken over
  exact ((mem_distinct_iff h).mp hb).2.2 a ((distinct_sublist taken columns).mem ha) hlt

/-! ## §3 Resolving -/

/-- What the layout of a clean sheet is made of, `values` being the eighth entry of the
dictionary. -/
structure Resolved (s : CleanSheet) (d : Dictionary) (values : MappingEntry) (layout : Layout) :
    Prop where
  entry : d.Holds Dictionary.valuesRow values
  column : LeftmostAt s.headers values.column layout.valuesColumn
  keyField : layout.keyField = s.headers.getD s.keyColumn ""
  attributes : layout.attributes = distinct [layout.keyField] (candidates s d layout.valuesColumn)
  valuesField : layout.valuesField = values.canonical

theorem resolve_of_not_holds {s : CleanSheet} {d : Dictionary}
    (h : ∀ e, ¬ d.Holds Dictionary.valuesRow e) :
    resolve s d = .error (.missingMapping Dictionary.valuesRow d.rows.length) := by
  rw [resolve, Dictionary.entry_of_not_holds h]
  rfl

theorem resolve_of_not_mem {s : CleanSheet} {d : Dictionary} {values : MappingEntry}
    (hvalues : d.Holds Dictionary.valuesRow values) (h : values.column ∉ s.headers) :
    resolve s d = .error (.refused (.valuesColumnNotFound values.column s.headers)) := by
  rw [resolve, Dictionary.entry_eq_ok_iff.mpr hvalues]
  simp [bind, Except.bind, findIdx?_eq_none_iff_not_mem.mpr h]

theorem resolve_of_leftmostAt {s : CleanSheet} {d : Dictionary} {values : MappingEntry} {c : Nat}
    (hvalues : d.Holds Dictionary.valuesRow values)
    (hc : LeftmostAt s.headers values.column c) :
    resolve s d = .ok
      { keyField := s.headers.getD s.keyColumn ""
        attributes := distinct [s.headers.getD s.keyColumn ""] (candidates s d c)
        valuesColumn := c
        valuesField := values.canonical } := by
  rw [resolve, Dictionary.entry_eq_ok_iff.mpr hvalues]
  simp [bind, Except.bind, findIdx?_eq_some_iff_leftmostAt.mpr hc]

/-- **Resolving**: a clean sheet has a layout exactly when the values column is found, and then the
layout is made of the candidates. -/
theorem resolve_eq_ok_iff {s : CleanSheet} {d : Dictionary} {layout : Layout} :
    resolve s d = .ok layout ↔ ∃ values, Resolved s d values layout := by
  constructor
  · intro h
    by_cases hentry : ∃ values, d.Holds Dictionary.valuesRow values
    · obtain ⟨values, hvalues⟩ := hentry
      by_cases hmem : values.column ∈ s.headers
      · obtain ⟨c, hc⟩ := exists_leftmostAt hmem
        rw [resolve_of_leftmostAt hvalues hc] at h
        cases h
        exact ⟨values, hvalues, hc, rfl, rfl, rfl⟩
      · rw [resolve_of_not_mem hvalues hmem] at h
        cases h
    · rw [resolve_of_not_holds (not_exists.mp hentry)] at h
      cases h
  · rintro ⟨values, hentry, hcolumn, hkey, hattributes, hfield⟩
    obtain ⟨keyField, attributes, valuesColumn, valuesField⟩ := layout
    dsimp only at hcolumn hkey hattributes hfield
    subst hkey hattributes hfield
    exact resolve_of_leftmostAt hentry hcolumn

section Resolved

variable {s : CleanSheet} {d : Dictionary} {values : MappingEntry} {layout : Layout}

/-- The attributes stand in column order. -/
theorem Resolved.attributes_pairwise (h : Resolved s d values layout) :
    layout.attributes.Pairwise (fun a b => a.1 < b.1) := by
  rw [h.attributes]
  exact (candidates_pairwise s d layout.valuesColumn).sublist (distinct_sublist _ _)

theorem Resolved.attribute_names_nodup (h : Resolved s d values layout) :
    (layout.attributes.map Prod.snd).Nodup := by
  rw [h.attributes]
  exact distinct_names_nodup (candidates_pairwise s d layout.valuesColumn)

/-- **Attributes**: a column is an attribute exactly when it is a candidate, bears another name
than the key and is the leftmost candidate of its name. -/
theorem Resolved.mem_attributes_iff (h : Resolved s d values layout) {j : Nat} {name : String} :
    (j, name) ∈ layout.attributes ↔
      Candidate s d layout.valuesColumn j name ∧ name ≠ layout.keyField ∧
        ∀ i < j, ¬ Candidate s d layout.valuesColumn i name := by
  rw [h.attributes, mem_distinct_iff (candidates_pairwise s d layout.valuesColumn),
    mem_candidates_iff, List.mem_singleton]
  constructor
  · rintro ⟨hcand, hkey, hleft⟩
    exact ⟨hcand, hkey, fun i hlt hi => hleft (i, name) (mem_candidates_iff.mpr hi) hlt rfl⟩
  · rintro ⟨hcand, hkey, hleft⟩
    refine ⟨hcand, hkey, ?_⟩
    rintro ⟨i, other⟩ hmem hlt rfl
    exact hleft i hlt (mem_candidates_iff.mp hmem)

/-- Every candidate's name is an attribute's name or the key's. -/
theorem Resolved.mem_attribute_names_iff (h : Resolved s d values layout) {name : String} :
    name ∈ layout.attributes.map Prod.snd ↔
      name ≠ layout.keyField ∧ ∃ j, Candidate s d layout.valuesColumn j name := by
  simp only [List.mem_map, Prod.exists, exists_eq_right, h.mem_attributes_iff]
  constructor
  · rintro ⟨j, hcand, hkey, -⟩
    exact ⟨hkey, j, hcand⟩
  · rintro ⟨hkey, hex⟩
    -- the leftmost candidate of the name is the attribute
    classical
    exact ⟨Nat.find hex, Nat.find_spec hex, hkey, fun i hi => Nat.find_min hex hi⟩

end Resolved

/-! ## §4 The layout of a small sheet -/

/-- Six attributes between the key and the values column. -/
def fieldLayout (valuesName : String) : Layout where
  keyField := "key"
  attributes := [(1, "description"), (2, "placeholder"), (3, "type"), (4, "required"), (5, "unit"),
    (6, "group")]
  valuesColumn := 7
  valuesField := valuesName

theorem resolve_fieldSheet (valuesName : String) :
    resolve CleanSheet.fieldSheet (CleanSheet.siteDictionary valuesName) =
      .ok (fieldLayout valuesName) := rfl

end MetadataCatalog.Layout
