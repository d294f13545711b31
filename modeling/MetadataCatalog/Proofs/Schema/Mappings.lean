import MetadataCatalog.Proofs.Schema.Columns
import MetadataCatalog.Proofs.Sheet.Grids

/-!
# Mappings

What a dictionary says of two columns of cells, the canonical names and the headers. `Answers` takes
the two ways of asking together: entries are found by their position, where a row that is not filled
in completely still counts, and a header is translated by the first entry that is found so. A
dictionary of a table answers for the first two columns of the table, one of pairs for the pairs,
and the table that has the pairs for its rows gives the same dictionary (`mapping_laws`).
-/

namespace MetadataCatalog

namespace Dictionary

/-! ## §1 Answers -/

/-- The dictionary answers for the rows of the two columns. -/
structure Answers (rows : List (Cell × Cell)) (d : Dictionary) : Prop where
  /-- All rows count. -/
  size : d.size = rows.length
  /-- A position has an entry exactly when it is a row in which both cells are filled. -/
  entry : ∀ i e, d.entry i = .ok e ↔ rows[i]? = some (some e.canonical, some e.column)
  /-- A position without an entry is reported with the number of the rows. -/
  missing : ∀ i, (∀ e, d.entry i ≠ .ok e) → d.entry i = .error (.missingMapping i rows.length)
  /-- A header has the name in the first entry with this column. -/
  translated : ∀ header name, d.canonicalFor? header = some name ↔
    ∃ i, d.entry i = .ok ⟨name, header⟩ ∧ ∀ j < i, ∀ e, d.entry j = .ok e → e.column ≠ header
  /-- A header that no entry has as its column has no name. -/
  untranslated : ∀ header, d.canonicalFor? header = none ↔
    ∀ i e, d.entry i = .ok e → e.column ≠ header

/-- A header is translated by the entries that are found by their position. -/
theorem canonicalFor?_eq_some_iff_entry {d : Dictionary} {header name : String} :
    d.canonicalFor? header = some name ↔
      ∃ i, d.entry i = .ok ⟨name, header⟩ ∧
        ∀ j < i, ∀ e, d.entry j = .ok e → e.column ≠ header := by
  simp only [canonicalFor?_eq_some_iff, entry_eq_ok_iff]
  constructor
  · rintro ⟨i, e, ⟨hentry, rfl, hfirst⟩, rfl⟩
    exact ⟨i, hentry, hfirst⟩
  · rintro ⟨i, hentry, hfirst⟩
    exact ⟨i, ⟨name, header⟩, ⟨hentry, rfl, hfirst⟩, rfl⟩

/-- A dictionary answers for the rows that it has, those filled in by half among them. -/
theorem answers_of_rows {d : Dictionary} {rows : List (Cell × Cell)}
    (h : d.rows = rows.map fun r => ⟨r.1, r.2⟩) : Answers rows d where
  size := by simp [size, h]
  entry i e := by
    rw [entry_eq_ok_iff, Holds, h, List.getElem?_map, Option.map_eq_some_iff]
    constructor
    · rintro ⟨⟨canonical, column⟩, hrow, hcells⟩
      -- the cells of the row are the two texts of the entry
      obtain ⟨rfl, rfl⟩ := MappingRow.mk.inj hcells
      exact hrow
    · intro hrow
      exact ⟨_, hrow, rfl⟩
  missing i hnone := by
    have hmissing := entry_of_not_holds fun e he => hnone e (entry_eq_ok_iff.mpr he)
    rw [hmissing, h, List.length_map]
  translated _ _ := canonicalFor?_eq_some_iff_entry
  untranslated header := by
    simp only [canonicalFor?_eq_none_iff, entry_eq_ok_iff]

/-! ## §2 Tables and pairs -/

/-- A row with the two texts of a pair. -/
def pairRow (pair : String × String) : List Cell :=
  [some pair.1, some pair.2]

/-- Made as long as the rows of its table, a pair is still a pair. -/
theorem padded_pairRow (header : List Cell) {pairs : List (String × String)}
    {pair : String × String} (h : pair ∈ pairs) :
    ∃ empty, Table.padded (Table.widest (header :: pairs.map pairRow)) (pairRow pair) =
      pairRow pair ++ empty := by
  have hmem : pairRow pair ∈ header :: pairs.map pairRow :=
    List.mem_cons_of_mem header (List.mem_map_of_mem h)
  exact ⟨_, Table.padded_of_length_le (Table.length_le_widest hmem)⟩

/-- Every pair is a data row: none is blank, so none is left out at the end. -/
theorem rows_ofRowsAt_pairs (header : List Cell) (pairs : List (String × String))
    (headerRow : Nat) :
    (Table.ofRowsAt (header :: pairs.map pairRow) headerRow).rows =
      (pairs.map pairRow).map (Table.padded (Table.widest (header :: pairs.map pairRow))) := by
  apply List.rdropWhile_eq_self_iff.mpr
  intro hne hblank
  -- the last row is that of a pair, too, and a pair has texts
  obtain ⟨row, hrow, hlast⟩ := List.mem_map.mp (List.getLast_mem hne)
  obtain ⟨pair, hpair, rfl⟩ := List.mem_map.mp hrow
  obtain ⟨empty, hpadded⟩ := padded_pairRow header hpair
  rw [← hlast, hpadded] at hblank
  simp [Table.isBlankRow, pairRow] at hblank

/-- The table that has the pairs for its rows gives the dictionary of the pairs, whatever its header
row. -/
theorem ofTable_ofRowsAt_pairs (header : List Cell) (pairs : List (String × String))
    (headerRow : Nat) :
    ofTable (Table.ofRowsAt (header :: pairs.map pairRow) headerRow) = ofPairs pairs := by
  rw [ofTable, ofPairs, rows_ofRowsAt_pairs, List.map_map, List.map_map, mk.injEq]
  refine List.map_congr_left fun pair hpair => ?_
  obtain ⟨empty, hpadded⟩ := padded_pairRow header hpair
  simp only [Function.comp_apply, hpadded]
  rfl

/-- **Mappings**: a dictionary answers for the first two columns of the table or for the pairs that
it is made of, and pairs that are the rows of a table give the same dictionary as the table. -/
theorem mapping_laws :
    (∀ t : Table, Answers (t.rows.map fun row => (cellAt row 0, cellAt row 1)) (ofTable t)) ∧
      (∀ pairs, Answers (pairs.map fun pair => (some pair.1, some pair.2)) (ofPairs pairs)) ∧
      ∀ header pairs headerRow,
        ofTable (Table.ofRowsAt (header :: pairs.map pairRow) headerRow) = ofPairs pairs := by
  refine ⟨fun t => answers_of_rows ?_, fun pairs => answers_of_rows ?_, ofTable_ofRowsAt_pairs⟩
  · simp [ofTable]
  · simp [ofPairs]

-- the half-filled row keeps its place, and the header in it is translated by the full row below
example :
    let d := ofTable (Table.ofRows [[some "ServiceDict", some "ExcelDict"],
      [none, some "Unit"], [some "unit", some "Unit"]])
    d.entry 0 = .error (.missingMapping 0 2) ∧ d.entry 1 = .ok ⟨"unit", "Unit"⟩ ∧
      d.canonicalFor? "Unit" = some "unit" := ⟨rfl, rfl, rfl⟩

end Dictionary

end MetadataCatalog
