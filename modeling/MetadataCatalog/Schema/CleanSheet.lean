import MetadataCatalog.Schema.Dictionary

/-!
# Clean sheets

A schema sheet is cleaned before its rows are read: rows without a key are dropped, then the one row
that explains the columns, which is the first of those left. Keys must be unique. The surviving rows
remember where they stood in the sheet, and the key column carries its canonical name.
-/

namespace MetadataCatalog

/-- A row that describes a field: its place in the sheet, its key and all its cells. -/
structure CleanRow where
  row : Nat
  key : String
  cells : List Cell
  deriving DecidableEq, Repr

/-- The rows of a schema sheet that describe fields. -/
structure CleanSheet where
  headers : List String
  keyColumn : Nat
  rows : List CleanRow
  deriving DecidableEq, Repr

namespace CleanSheet

/-- The rows of a table that have a key, each with its place and its key. -/
def keyedRows (t : Table) (keyColumn : Nat) : List CleanRow :=
  t.rows.zipIdx.filterMap fun (cells, i) =>
    (cellAt cells keyColumn).map fun key => { row := t.sheetRow i, key, cells }

/-- The first row whose key is among `seen` or is that of an earlier row. -/
def firstRepeat? (seen : List String) : List CleanRow → Option CleanRow
  | [] => none
  | r :: rest => if r.key ∈ seen then some r else firstRepeat? (r.key :: seen) rest

/-- The clean sheet of a table. -/
def ofTable (t : Table) (d : Dictionary) : Except Fault CleanSheet := do
  let key ← d.entry Dictionary.keyRow
  match t.columnIndex? key.column with
  | none => .error (.refused (.keyColumnNotFound key.column t.headers))
  | some keyColumn =>
    let rows := (keyedRows t keyColumn).drop 1
    match firstRepeat? [] rows with
    | some r => .error (.malformedRow r.row (.duplicateKey r.key))
    | none => .ok { headers := t.headers.set keyColumn key.canonical, keyColumn, rows }

/-- The keys in order. -/
def keys (s : CleanSheet) : List String :=
  s.rows.map CleanRow.key

end CleanSheet

end MetadataCatalog
