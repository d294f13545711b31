import MetadataCatalog.Proofs.Schema.Columns
import MetadataCatalog.Schema.CleanSheet
import Mathlib.Data.List.Nodup

/-!
# Cleaning a schema sheet

What is left of a schema sheet when it is cleaned, said by the positions of its rows: a data row
survives when its key cell is filled and so is the key cell of some row above it. The main results
are `mem_survivors_iff`, which finds every survivor in the table, and `ofTable_eq_ok_iff`, which
says what a clean sheet is made of.
-/

namespace MetadataCatalog

namespace CleanSheet

/-! ## §1 Keyed rows and survivors -/

/-- The key cell of data row `i`; beyond the last row it is empty. -/
def keyAt (t : Table) (keyColumn i : Nat) : Cell :=
  (t.rows[i]?).bind (cellAt · keyColumn)

/-- Data row `i` has a key and is not the first row that has one. -/
def Survives (t : Table) (keyColumn i : Nat) : Prop :=
  (keyAt t keyColumn i).isSome ∧ ∃ j < i, (keyAt t keyColumn j).isSome

/-- Data row `i` survives and has the key of a surviving row above it. -/
def RepeatsKey (t : Table) (keyColumn i : Nat) : Prop :=
  Survives t keyColumn i ∧
    ∃ j < i, Survives t keyColumn j ∧ keyAt t keyColumn j = keyAt t keyColumn i

/-- A clean row that shows data row `i` of a table. -/
structure Shows (t : Table) (keyColumn i : Nat) (r : CleanRow) : Prop where
  row : r.row = t.sheetRow i
  cells : t.rows[i]? = some r.cells
  key : cellAt r.cells keyColumn = some r.key

theorem Shows.keyAt_eq {t : Table} {keyColumn i : Nat} {r : CleanRow}
    (h : Shows t keyColumn i r) : keyAt t keyColumn i = some r.key := by
  simp [keyAt, h.cells, h.key]

/-- Clean rows stand in the order of the data rows that they show. -/
theorem Shows.row_lt_iff {t : Table} {keyColumn i j : Nat} {r s : CleanRow}
    (hr : Shows t keyColumn i r) (hs : Shows t keyColumn j s) : r.row < s.row ↔ i < j := by
  rw [hr.row, hs.row, Table.sheetRow, Table.sheetRow]
  exact Nat.add_lt_add_iff_left

/-- The keyed rows are the rows whose key cell is filled. -/
theorem mem_keyedRows_iff {t : Table} {keyColumn : Nat} {r : CleanRow} :
    r ∈ keyedRows t keyColumn ↔ ∃ i, Shows t keyColumn i r := by
  simp only [keyedRows, List.mem_filterMap, Option.map_eq_some_iff, Prod.exists,
    List.mk_mem_zipIdx_iff_getElem?]
  constructor
  · rintro ⟨cells, i, hrow, key, hkey, rfl⟩
    exact ⟨i, rfl, hrow, hkey⟩
  · rintro ⟨i, hrow, hcells, hkey⟩
    -- the row that is built at position `i` has the parts of `r`
    refine ⟨r.cells, i, hcells, r.key, hkey, ?_⟩
    rw [← hrow]

/-- Some keyed row shows data row `i` exactly when its key cell is filled. -/
theorem exists_shows_iff {t : Table} {keyColumn i : Nat} :
    (∃ r, Shows t keyColumn i r) ↔ (keyAt t keyColumn i).isSome := by
  constructor
  · rintro ⟨r, hr⟩
    simp [hr.keyAt_eq]
  · intro h
    obtain ⟨key, hkey⟩ := Option.isSome_iff_exists.mp h
    obtain ⟨cells, hcells, hcell⟩ := Option.bind_eq_some_iff.mp hkey
    exact ⟨⟨t.sheetRow i, key, cells⟩, rfl, hcells, hcell⟩

/-- The keyed rows stand in the order of the sheet. -/
theorem keyedRows_pairwise (t : Table) (keyColumn : Nat) :
    (keyedRows t keyColumn).Pairwise (fun a b => a.row < b.row) := by
  -- positions grow along the numbered rows, and sheet rows grow with positions
  refine List.Pairwise.filterMap _ ?_ (zipIdx_pairwise_lt t.rows)
  rintro ⟨cells, i⟩ ⟨cells', j⟩ hij r hr r' hr'
  obtain ⟨key, -, rfl⟩ := Option.map_eq_some_iff.mp hr
  obtain ⟨key', -, rfl⟩ := Option.map_eq_some_iff.mp hr'
  simp only [Table.sheetRow]
  omega

/-- The cells of the keyed rows, with nothing said about where they stand. -/
theorem map_cells_keyedRows (t : Table) (keyColumn : Nat) :
    (keyedRows t keyColumn).map CleanRow.cells =
      t.rows.filter fun cells => (cellAt cells keyColumn).isSome := by
  -- a row is kept with its cells or left out, whatever its position
  have hrow : ∀ p : List Cell × Nat,
      ((cellAt p.1 keyColumn).map fun key =>
        ({ row := t.sheetRow p.2, key, cells := p.1 } : CleanRow)).map CleanRow.cells =
      Option.guard (fun cells => (cellAt cells keyColumn).isSome) p.1 := by
    rintro ⟨cells, i⟩
    cases h : cellAt cells keyColumn <;> simp [Option.guard, h]
  calc (keyedRows t keyColumn).map CleanRow.cells
      = t.rows.zipIdx.filterMap
          (Option.guard (fun cells => (cellAt cells keyColumn).isSome) ∘ Prod.fst) := by
        rw [keyedRows, List.map_filterMap]
        simp only [hrow, Function.comp_def]
    _ = (t.rows.zipIdx.map Prod.fst).filterMap
          (Option.guard fun cells => (cellAt cells keyColumn).isSome) := by
        rw [List.filterMap_map]
    _ = t.rows.filter fun cells => (cellAt cells keyColumn).isSome := by
        rw [List.zipIdx_map_fst, List.filterMap_eq_filter]

/-- In a list in the order of the sheet, all but the first row are those with a row above them. -/
theorem mem_drop_one_iff {rows : List CleanRow} (h : rows.Pairwise fun a b => a.row < b.row)
    {r : CleanRow} : r ∈ rows.drop 1 ↔ r ∈ rows ∧ ∃ s ∈ rows, s.row < r.row := by
  cases rows with
  | nil => simp
  | cons first rest =>
    obtain ⟨hfirst, -⟩ := List.pairwise_cons.mp h
    rw [List.drop_one, List.tail_cons]
    constructor
    · intro hr
      exact ⟨List.mem_cons_of_mem _ hr, first, List.mem_cons_self, hfirst r hr⟩
    · rintro ⟨hr, s, hs, hlt⟩
      rcases List.mem_cons.mp hr with rfl | hr
      · -- nothing stands above the first row, not even the first row itself
        rcases List.mem_cons.mp hs with rfl | hs
        · omega
        · have := hfirst s hs
          omega
      · exact hr

/-- **Survivors**: the rows that are left when the first keyed row is dropped are those that show
a surviving data row. -/
theorem mem_survivors_iff {t : Table} {keyColumn : Nat} {r : CleanRow} :
    r ∈ (keyedRows t keyColumn).drop 1 ↔
      ∃ i, Shows t keyColumn i r ∧ Survives t keyColumn i := by
  rw [mem_drop_one_iff (keyedRows_pairwise t keyColumn), mem_keyedRows_iff]
  constructor
  · rintro ⟨⟨i, hi⟩, s, hs, hlt⟩
    obtain ⟨j, hj⟩ := mem_keyedRows_iff.mp hs
    exact ⟨i, hi, exists_shows_iff.mp ⟨r, hi⟩, j, (hj.row_lt_iff hi).mp hlt,
      exists_shows_iff.mp ⟨s, hj⟩⟩
  · rintro ⟨i, hi, -, j, hlt, hj⟩
    obtain ⟨s, hs⟩ := exists_shows_iff.mpr hj
    exact ⟨⟨i, hi⟩, s, mem_keyedRows_iff.mpr ⟨j, hs⟩, (hs.row_lt_iff hi).mpr hlt⟩

theorem survivors_pairwise (t : Table) (keyColumn : Nat) :
    ((keyedRows t keyColumn).drop 1).Pairwise (fun a b => a.row < b.row) :=
  (keyedRows_pairwise t keyColumn).sublist (List.drop_sublist 1 _)

/-! ## §2 Repeated keys -/

theorem firstRepeat?_eq_none_iff {seen : List String} {rows : List CleanRow} :
    firstRepeat? seen rows = none ↔
      (rows.map CleanRow.key).Nodup ∧ ∀ r ∈ rows, r.key ∉ seen := by
  induction rows generalizing seen with
  | nil => simp [firstRepeat?]
  | cons r rest ih =>
    by_cases hseen : r.key ∈ seen
    · simp [firstRepeat?, hseen]
    -- the first key joins the seen ones, so the rest has to avoid it: that is its part of `Nodup`
    · simp only [firstRepeat?, hseen, if_false, ih, List.map_cons, List.nodup_cons,
        List.mem_cons, forall_eq_or_imp, not_false_eq_true, true_and, not_or]
      constructor
      · rintro ⟨hnodup, hrest⟩
        refine ⟨⟨fun hmem => ?_, hnodup⟩, fun s hs => (hrest s hs).2⟩
        obtain ⟨s, hs, hkey⟩ := List.mem_map.mp hmem
        exact (hrest s hs).1 hkey
      · rintro ⟨⟨hnot, hnodup⟩, hrest⟩
        refine ⟨hnodup, fun s hs => ⟨fun hkey => hnot ?_, hrest s hs⟩⟩
        exact List.mem_map.mpr ⟨s, hs, hkey⟩

/-- The first repeat splits the rows: what stands above it repeats nothing. -/
theorem firstRepeat?_eq_some {seen : List String} {rows : List CleanRow} {r : CleanRow}
    (h : firstRepeat? seen rows = some r) :
    ∃ above below, rows = above ++ r :: below ∧ firstRepeat? seen above = none ∧
      (r.key ∈ seen ∨ r.key ∈ above.map CleanRow.key) := by
  induction rows generalizing seen with
  | nil => simp [firstRepeat?] at h
  | cons s rest ih =>
    by_cases hseen : s.key ∈ seen
    · simp only [firstRepeat?, hseen, if_true, Option.some.injEq] at h
      subst h
      exact ⟨[], rest, rfl, rfl, Or.inl hseen⟩
    · simp only [firstRepeat?, hseen, if_false] at h
      obtain ⟨above, below, rfl, hnone, hkey⟩ := ih h
      -- the repeat is further down, so `s` is one more row above it
      refine ⟨s :: above, below, rfl, by simpa [firstRepeat?, hseen] using hnone, ?_⟩
      rcases hkey with hkey | hkey
      · rcases List.mem_cons.mp hkey with heq | hkey
        · exact Or.inr (by simp [heq])
        · exact Or.inl hkey
      · exact Or.inr (List.mem_cons_of_mem _ hkey)

/-- Rows with pairwise different keys that stand at different places have different keys. -/
private theorem key_ne_of_row_lt {rows : List CleanRow} (h : (rows.map CleanRow.key).Nodup)
    {a b : CleanRow} (ha : a ∈ rows) (hb : b ∈ rows) (hlt : a.row < b.row) : a.key ≠ b.key := by
  intro hkey
  have heq : a = b := List.inj_on_of_nodup_map h ha hb hkey
  rw [heq] at hlt
  exact Nat.lt_irrefl _ hlt

/-- A repeated key is a pair of survivors, one above the other, with one key. -/
private theorem RepeatsKey.exists_pair {t : Table} {keyColumn i : Nat}
    (h : RepeatsKey t keyColumn i) :
    ∃ a b, Shows t keyColumn i b ∧ a ∈ (keyedRows t keyColumn).drop 1 ∧
      b ∈ (keyedRows t keyColumn).drop 1 ∧ a.row < b.row ∧ a.key = b.key := by
  obtain ⟨hi, j, hlt, hj, hkey⟩ := h
  obtain ⟨a, ha⟩ := exists_shows_iff.mpr hj.1
  obtain ⟨b, hb⟩ := exists_shows_iff.mpr hi.1
  rw [ha.keyAt_eq, hb.keyAt_eq] at hkey
  exact ⟨a, b, hb, mem_survivors_iff.mpr ⟨j, ha, hj⟩, mem_survivors_iff.mpr ⟨i, hb, hi⟩,
    (ha.row_lt_iff hb).mpr hlt, Option.some.inj hkey⟩

/-- Where no repeat is found, no survivor has the key of a survivor above it. -/
theorem not_repeatsKey_of_firstRepeat? {t : Table} {keyColumn : Nat}
    (h : firstRepeat? [] ((keyedRows t keyColumn).drop 1) = none) (i : Nat) :
    ¬ RepeatsKey t keyColumn i := by
  intro hi
  obtain ⟨a, b, -, ha, hb, hlt, hkey⟩ := hi.exists_pair
  exact key_ne_of_row_lt (firstRepeat?_eq_none_iff.mp h).1 ha hb hlt hkey

/-- **The first repeat**: the row that is found shows the first data row that repeats a key. -/
theorem repeatsKey_of_firstRepeat? {t : Table} {keyColumn : Nat} {r : CleanRow}
    (h : firstRepeat? [] ((keyedRows t keyColumn).drop 1) = some r) :
    ∃ i, Shows t keyColumn i r ∧ RepeatsKey t keyColumn i ∧ ∀ j < i, ¬ RepeatsKey t keyColumn j := by
  obtain ⟨above, below, hrows, hnone, hkey⟩ := firstRepeat?_eq_some h
  have hpairs := survivors_pairwise t keyColumn
  rw [hrows, List.pairwise_append] at hpairs
  obtain ⟨-, hbelow, habove⟩ := hpairs
  obtain ⟨i, hi, hsurvives⟩ := mem_survivors_iff.mp (show r ∈ _ by rw [hrows]; simp)
  -- what stands above the found row in the sheet stands above it in the list
  have hmem : ∀ s ∈ (keyedRows t keyColumn).drop 1, s.row < r.row → s ∈ above := by
    intro s hs hlt
    rw [hrows] at hs
    rcases List.mem_append.mp hs with hs | hs
    · exact hs
    · rcases List.mem_cons.mp hs with rfl | hs
      · omega
      · have := (List.pairwise_cons.mp hbelow).1 s hs
        omega
  -- it repeats a key of the rows above it, and these repeat none among themselves
  refine ⟨i, hi, ⟨hsurvives, ?_⟩, ?_⟩
  · obtain ⟨s, hs, hskey⟩ := List.mem_map.mp (hkey.resolve_left List.not_mem_nil)
    obtain ⟨j, hj, hjs⟩ := mem_survivors_iff.mp (show s ∈ _ by rw [hrows]; simp [hs])
    have hlt := (hj.row_lt_iff hi).mp (habove s hs r List.mem_cons_self)
    exact ⟨j, hlt, hjs, by rw [hj.keyAt_eq, hi.keyAt_eq, hskey]⟩
  · intro j hlt hj
    obtain ⟨a, b, hb, ha, hb', hab, hkeys⟩ := hj.exists_pair
    have hbr : b.row < r.row := (hb.row_lt_iff hi).mpr hlt
    exact key_ne_of_row_lt (firstRepeat?_eq_none_iff.mp hnone).1 (hmem a ha (by omega))
      (hmem b hb' hbr) hab hkeys

/-! ## §3 Clean sheets -/

/-- What a clean sheet of a table is made of, `key` being the first entry of the dictionary. -/
structure Cleaned (t : Table) (d : Dictionary) (key : MappingEntry) (s : CleanSheet) : Prop where
  entry : d.Holds Dictionary.keyRow key
  column : LeftmostAt t.headers key.column s.keyColumn
  headers : s.headers = t.headers.set s.keyColumn key.canonical
  rows : s.rows = (keyedRows t s.keyColumn).drop 1
  distinct : firstRepeat? [] s.rows = none

theorem ofTable_of_not_holds {t : Table} {d : Dictionary}
    (h : ∀ e, ¬ d.Holds Dictionary.keyRow e) :
    ofTable t d = .error (.missingMapping Dictionary.keyRow d.rows.length) := by
  rw [ofTable, Dictionary.entry_of_not_holds h]
  rfl

theorem ofTable_of_not_mem {t : Table} {d : Dictionary} {key : MappingEntry}
    (hkey : d.Holds Dictionary.keyRow key) (h : key.column ∉ t.headers) :
    ofTable t d = .error (.refused (.keyColumnNotFound key.column t.headers)) := by
  have hcol : t.columnIndex? key.column = none := findIdx?_eq_none_iff_not_mem.mpr h
  rw [ofTable, Dictionary.entry_eq_ok_iff.mpr hkey]
  simp [bind, Except.bind, hcol]

/-- Once the key column is found, only a repeated key can stop the cleaning. -/
theorem ofTable_of_leftmostAt {t : Table} {d : Dictionary} {key : MappingEntry} {c : Nat}
    (hkey : d.Holds Dictionary.keyRow key) (hc : LeftmostAt t.headers key.column c) :
    ofTable t d =
      match firstRepeat? [] ((keyedRows t c).drop 1) with
      | some r => .error (.malformedRow r.row (.duplicateKey r.key))
      | none => .ok ⟨t.headers.set c key.canonical, c, (keyedRows t c).drop 1⟩ := by
  have hcol : t.columnIndex? key.column = some c := findIdx?_eq_some_iff_leftmostAt.mpr hc
  rw [ofTable, Dictionary.entry_eq_ok_iff.mpr hkey]
  cases hrepeat : firstRepeat? [] ((keyedRows t c).drop 1) with
  | none => simp only [bind, Except.bind, hcol, hrepeat]
  | some r => simp only [bind, Except.bind, hcol, hrepeat]

/-- **Cleaning**: a table has a clean sheet exactly when the sheet is made of its survivors. -/
theorem ofTable_eq_ok_iff {t : Table} {d : Dictionary} {s : CleanSheet} :
    ofTable t d = .ok s ↔ ∃ key, Cleaned t d key s := by
  constructor
  -- the checks in the order in which they are made; only behind the last one is there a sheet
  · intro h
    by_cases hentry : ∃ key, d.Holds Dictionary.keyRow key
    · obtain ⟨key, hkey⟩ := hentry
      by_cases hmem : key.column ∈ t.headers
      · obtain ⟨c, hc⟩ := exists_leftmostAt hmem
        rw [ofTable_of_leftmostAt hkey hc] at h
        split at h
        · cases h
        · rename_i hnone
          cases h
          exact ⟨key, hkey, hc, rfl, rfl, hnone⟩
      · rw [ofTable_of_not_mem hkey hmem] at h
        cases h
    · rw [ofTable_of_not_holds (not_exists.mp hentry)] at h
      cases h
  · rintro ⟨key, hentry, hcolumn, hheaders, hrows, hdistinct⟩
    obtain ⟨headers, c, rows⟩ := s
    dsimp only at hcolumn hheaders hrows hdistinct
    subst hrows hheaders
    rw [ofTable_of_leftmostAt hentry hcolumn, hdistinct]

section Cleaned

variable {t : Table} {d : Dictionary} {key : MappingEntry} {s : CleanSheet}

/-- The keys of a clean sheet are pairwise different. -/
theorem Cleaned.keys_nodup (h : Cleaned t d key s) : (s.rows.map CleanRow.key).Nodup :=
  (firstRepeat?_eq_none_iff.mp h.distinct).1

/-- The key column carries the canonical name. -/
theorem Cleaned.header_keyColumn (h : Cleaned t d key s) :
    s.headers[s.keyColumn]? = some key.canonical := by
  obtain ⟨hlt, -⟩ := List.getElem?_eq_some_iff.mp h.column.1
  rw [h.headers]
  exact List.getElem?_set_self hlt

theorem Cleaned.cellAt_keyColumn (h : Cleaned t d key s) {r : CleanRow} (hr : r ∈ s.rows) :
    cellAt r.cells s.keyColumn = some r.key := by
  rw [h.rows] at hr
  obtain ⟨i, hi, -⟩ := mem_survivors_iff.mp hr
  exact hi.key

end Cleaned

/-! ## §4 A small sheet -/

/-- A dictionary that gives the list of values the name `valuesName`. -/
def siteDictionary (valuesName : String) : Dictionary :=
  Dictionary.ofPairs
    [("key", "metakey"), ("description", "description"), ("placeholder", "placeholder"),
      ("type", "type"), ("required", "required"), ("unit", "unit"), ("group", "group"),
      (valuesName, "values")]

/-- A sheet with a row that explains the columns, a row without a key and two fields, of which the
first lists values. -/
def fieldTable : Table :=
  Table.ofRows
    [[some "metakey", some "description", some "placeholder", some "type", some "required",
        some "unit", some "group", some "values", some "more values"],
      [some "key of the field", some "what it means"],
      [some "color", some "Sample color", none, some "str", none, none, none, some "red",
        some "blue"],
      [none, some "belongs to the row above"],
      [some "size", some "Sample size", none, some "float", none, some "mm"]]

/-- The two fields, with the sheet rows they stand on. -/
def fieldSheet : CleanSheet where
  headers := ["key", "description", "placeholder", "type", "required", "unit", "group", "values",
    "more values"]
  keyColumn := 0
  rows :=
    [{ row := 3
       key := "color"
       cells := [some "color", some "Sample color", none, some "str", none, none, none, some "red",
         some "blue"] },
      { row := 5
        key := "size"
        cells := [some "size", some "Sample size", none, some "float", none, some "mm", none, none,
          none] }]

theorem ofTable_fieldTable (valuesName : String) :
    ofTable fieldTable (siteDictionary valuesName) = .ok fieldSheet := rfl

end CleanSheet

end MetadataCatalog
