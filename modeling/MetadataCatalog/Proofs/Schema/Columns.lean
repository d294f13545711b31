import MetadataCatalog.Schema.Dictionary

/-!
# Entries and columns

How a dictionary row and a sheet column are found. A dictionary `Holds` an entry at a position when
that row is filled in completely; a header stands `LeftmostAt` a column when no column further left
has it. Both say in one line what the searches give, and both find one thing at most.
-/

namespace MetadataCatalog

/-! ## §1 Entries of a dictionary -/

/-- Row `index` of the dictionary is filled in completely, with the entry `e`. -/
def Dictionary.Holds (d : Dictionary) (index : Nat) (e : MappingEntry) : Prop :=
  d.rows[index]? = some ⟨some e.canonical, some e.column⟩

theorem MappingRow.entry?_eq_some_iff {row : MappingRow} {e : MappingEntry} :
    row.entry? = some e ↔ row = ⟨some e.canonical, some e.column⟩ := by
  obtain ⟨canonical, column⟩ := row
  obtain ⟨name, header⟩ := e
  cases canonical <;> cases column <;> simp [MappingRow.entry?]

theorem Dictionary.entry?_eq_some_iff {d : Dictionary} {index : Nat} {e : MappingEntry} :
    d.entry? index = some e ↔ d.Holds index e := by
  simp only [Dictionary.entry?, Option.bind_eq_some_iff, MappingRow.entry?_eq_some_iff,
    Dictionary.Holds]
  constructor
  · rintro ⟨row, hrow, rfl⟩
    exact hrow
  · intro h
    exact ⟨_, h, rfl⟩

/-- An entry is given out exactly when its row holds it. -/
theorem Dictionary.entry_eq_ok_iff {d : Dictionary} {index : Nat} {e : MappingEntry} :
    d.entry index = .ok e ↔ d.Holds index e := by
  rw [← Dictionary.entry?_eq_some_iff, Dictionary.entry]
  cases d.entry? index <;> simp

/-- A row that holds no entry is reported with its position and the number of rows. -/
theorem Dictionary.entry_of_not_holds {d : Dictionary} {index : Nat}
    (h : ∀ e, ¬ d.Holds index e) :
    d.entry index = .error (.missingMapping index d.rows.length) := by
  have hnone : d.entry? index = none :=
    Option.eq_none_iff_forall_ne_some.mpr fun e he => h e (Dictionary.entry?_eq_some_iff.mp he)
  rw [Dictionary.entry, hnone]
  rfl

theorem Dictionary.Holds.unique {d : Dictionary} {index : Nat} {e e' : MappingEntry}
    (h : d.Holds index e) (h' : d.Holds index e') : e = e' := by
  have hsome := Dictionary.entry?_eq_some_iff.mpr h
  rw [Dictionary.entry?_eq_some_iff.mpr h'] at hsome
  exact (Option.some.inj hsome).symm

/-- Row `index` holds the first entry of the dictionary that has the column `header`. -/
structure Dictionary.FirstFor (d : Dictionary) (header : String) (index : Nat)
    (e : MappingEntry) : Prop where
  entry : d.Holds index e
  column : e.column = header
  first : ∀ j < index, ∀ e', d.Holds j e' → e'.column ≠ header

/-- A row has a name for a header when it is filled in completely and has that column. -/
private theorem MappingRow.translates_iff {row : MappingRow} {header name : String} :
    (row.entry?.bind fun e => if e.column = header then some e.canonical else none) = some name ↔
      ∃ e : MappingEntry, row = ⟨some e.canonical, some e.column⟩ ∧ e.column = header ∧
        e.canonical = name := by
  simp only [Option.bind_eq_some_iff, MappingRow.entry?_eq_some_iff, Option.ite_none_right_eq_some,
    Option.some.injEq]

/-- **Translation**: a header has the name of the first entry with this column. -/
theorem Dictionary.canonicalFor?_eq_some_iff {d : Dictionary} {header name : String} :
    d.canonicalFor? header = some name ↔
      ∃ index e, d.FirstFor header index e ∧ e.canonical = name := by
  rw [Dictionary.canonicalFor?, List.findSome?_eq_some_iff]
  constructor
  · rintro ⟨above, row, below, hrows, hrow, habove⟩
    obtain ⟨e, rfl, hcolumn, hname⟩ := MappingRow.translates_iff.mp hrow
    refine ⟨above.length, e, ⟨?_, hcolumn, fun j hj e' he' heq => ?_⟩, hname⟩
    · rw [Dictionary.Holds, hrows]
      simp
    · -- an entry further up stands in one of the rows that were passed over
      rw [Dictionary.Holds, hrows, List.getElem?_append_left hj] at he'
      have hnone := habove _ (List.mem_of_getElem? he')
      rw [MappingRow.translates_iff.mpr ⟨e', rfl, heq, rfl⟩] at hnone
      cases hnone
  · rintro ⟨index, e, ⟨hentry, hcolumn, hfirst⟩, hname⟩
    obtain ⟨hlt, hrow⟩ := List.getElem?_eq_some_iff.mp hentry
    refine ⟨d.rows.take index, d.rows[index], d.rows.drop (index + 1), ?_, ?_, ?_⟩
    · rw [List.getElem_cons_drop, List.take_append_drop]
    · exact MappingRow.translates_iff.mpr ⟨e, hrow, hcolumn, hname⟩
    · intro row hmem
      apply Option.eq_none_iff_forall_ne_some.mpr
      intro other hother
      obtain ⟨e', rfl, hcolumn', -⟩ := MappingRow.translates_iff.mp hother
      obtain ⟨j, hj, hget⟩ := List.mem_take_iff_getElem.mp hmem
      -- the row stands above row `index`, where no entry has the header
      apply hfirst j (by omega) e' _ hcolumn'
      rw [Dictionary.Holds, List.getElem?_eq_getElem (by omega), hget]

/-- A header has no name exactly when no entry has this column. -/
theorem Dictionary.canonicalFor?_eq_none_iff {d : Dictionary} {header : String} :
    d.canonicalFor? header = none ↔ ∀ index e, d.Holds index e → e.column ≠ header := by
  rw [Dictionary.canonicalFor?, List.findSome?_eq_none_iff]
  constructor
  · intro h index e hentry heq
    have hnone := h _ (List.mem_of_getElem? hentry)
    rw [MappingRow.translates_iff.mpr ⟨e, rfl, heq, rfl⟩] at hnone
    cases hnone
  · intro h row hrow
    apply Option.eq_none_iff_forall_ne_some.mpr
    intro name hname
    obtain ⟨e, rfl, hcolumn, -⟩ := MappingRow.translates_iff.mp hname
    obtain ⟨index, hentry⟩ := List.getElem?_of_mem hrow
    exact h index e hentry hcolumn

/-! ## §2 Columns -/

/-- Column `c` is the leftmost one under the header `header`. -/
def LeftmostAt (headers : List String) (header : String) (c : Nat) : Prop :=
  headers[c]? = some header ∧ ∀ j < c, headers[j]? ≠ some header

theorem findIdx?_eq_some_iff_leftmostAt {headers : List String} {header : String} {c : Nat} :
    headers.findIdx? (· = header) = some c ↔ LeftmostAt headers header c := by
  rw [List.findIdx?_eq_some_iff_getElem]
  constructor
  · rintro ⟨hc, hp, hlt⟩
    refine ⟨by simpa [List.getElem?_eq_getElem hc] using hp, fun j hj => ?_⟩
    rw [List.getElem?_eq_getElem (by omega)]
    simpa using hlt j hj
  · rintro ⟨hc, hlt⟩
    obtain ⟨hlen, hp⟩ := List.getElem?_eq_some_iff.mp hc
    refine ⟨hlen, by simpa using hp, fun j hj => ?_⟩
    have hne := hlt j hj
    rw [List.getElem?_eq_getElem (by omega)] at hne
    simpa using hne

theorem findIdx?_eq_none_iff_not_mem {headers : List String} {header : String} :
    headers.findIdx? (· = header) = none ↔ header ∉ headers := by
  rw [List.findIdx?_eq_none_iff]
  constructor
  · intro h hmem
    simpa using h header hmem
  · intro h x hx
    have hne : x ≠ header := fun he => h (he ▸ hx)
    simpa using hne

theorem LeftmostAt.unique {headers : List String} {header : String} {c c' : Nat}
    (h : LeftmostAt headers header c) (h' : LeftmostAt headers header c') : c = c' := by
  have hsome := findIdx?_eq_some_iff_leftmostAt.mpr h
  rw [findIdx?_eq_some_iff_leftmostAt.mpr h'] at hsome
  exact (Option.some.inj hsome).symm

theorem exists_leftmostAt {headers : List String} {header : String} (h : header ∈ headers) :
    ∃ c, LeftmostAt headers header c := by
  cases hcol : headers.findIdx? (· = header) with
  | none => exact absurd h (findIdx?_eq_none_iff_not_mem.mp hcol)
  | some c => exact ⟨c, findIdx?_eq_some_iff_leftmostAt.mp hcol⟩

theorem LeftmostAt.mem {headers : List String} {header : String} {c : Nat}
    (h : LeftmostAt headers header c) : header ∈ headers :=
  List.mem_of_getElem? h.1

/-- The positions that a list is numbered with increase. -/
theorem zipIdx_pairwise_lt {α : Type} (items : List α) :
    items.zipIdx.Pairwise (fun a b => a.2 < b.2) := by
  rw [← List.pairwise_map, List.zipIdx_map_snd]
  exact List.pairwise_lt_range'

end MetadataCatalog
