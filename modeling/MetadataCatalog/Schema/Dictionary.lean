import MetadataCatalog.Fault
import MetadataCatalog.Sheet.Table

/-!
# The dictionary of columns

The dictionary says which header a site uses for each canonical attribute name. Its rows are used in
two ways: by position, because the first row names the key column and the eighth row the first
column of permitted values, and by header, to translate headers into canonical names. A row that is
not filled in completely keeps its position but is of no use in either way.
-/

namespace MetadataCatalog

/-- A row of the dictionary: canonical name and column header, each perhaps missing. -/
structure MappingRow where
  canonical : Cell
  column : Cell
  deriving DecidableEq, Repr

/-- A complete row of the dictionary. -/
structure MappingEntry where
  canonical : String
  column : String
  deriving DecidableEq, Repr

/-- The rows of a dictionary in order. -/
structure Dictionary where
  rows : List MappingRow
  deriving DecidableEq, Repr

/-- The entry of a completely filled row. -/
def MappingRow.entry? (row : MappingRow) : Option MappingEntry :=
  match row.canonical, row.column with
  | some canonical, some column => some ⟨canonical, column⟩
  | _, _ => none

namespace Dictionary

/-- The name of the sheet that holds the dictionary. -/
def sheetName : String := "schema_dicts"

/-- The row that names the key column. -/
def keyRow : Nat := 0

/-- The row that names the first column of permitted values. -/
def valuesRow : Nat := 7

/-- The dictionary of a table: canonical names in its first column, headers in its second. -/
def ofTable (t : Table) : Dictionary :=
  ⟨t.rows.map fun row => ⟨cellAt row 0, cellAt row 1⟩⟩

/-- The dictionary of pairs of a canonical name and a header. -/
def ofPairs (pairs : List (String × String)) : Dictionary :=
  ⟨pairs.map fun (canonical, column) => ⟨some canonical, some column⟩⟩

/-- The number of rows, complete or not. -/
def size (d : Dictionary) : Nat :=
  d.rows.length

/-- Whether there are no rows. -/
def isEmpty (d : Dictionary) : Bool :=
  d.rows.isEmpty

/-- The entry at a position, if there is a complete row. -/
def entry? (d : Dictionary) (index : Nat) : Option MappingEntry :=
  d.rows[index]?.bind MappingRow.entry?

/-- The entry at a position, or the fault that says it is missing. -/
def entry (d : Dictionary) (index : Nat) : Except Fault MappingEntry :=
  match d.entry? index with
  | some e => .ok e
  | none => .error (.missingMapping index d.size)

/-- The canonical name of the first complete row with the given header. -/
def canonicalFor? (d : Dictionary) (header : String) : Option String :=
  d.rows.findSome? fun row =>
    row.entry?.bind fun e => if e.column = header then some e.canonical else none

end Dictionary

end MetadataCatalog
