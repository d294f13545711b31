import MetadataCatalog.Sheet.Table
import MetadataCatalog.Decimal.Literal

/-!
# Grids

A sheet of a spreadsheet is a grid: positions with stored values. Its table is the rectangle that
encloses all values, stretched to the left edge of the sheet so that columns keep their positions;
the rows above the rectangle move the header down.
-/

namespace MetadataCatalog

/-- The kinds of stored values. -/
inductive StoredKind where
  | text
  | blank
  | number
  | moment
  | boolean
  | error
  | stamp
  | formula
  deriving DecidableEq, Repr

/-- A value as a spreadsheet stores it: a kind and a text, at a row and a column that count from
zero. -/
structure Stored where
  row : Nat
  column : Nat
  kind : StoredKind
  value : String
  deriving DecidableEq, Repr

namespace Stored

/-- The errors that a spreadsheet can hold. -/
def errors : List String :=
  ["#DIV/0!", "#N/A", "#NAME?", "#NULL!", "#NUM!", "#REF!", "#VALUE!"]

/-- The datum that a stored value is, unless it is an unknown error. A number that is none counts as
text. -/
def datum? (s : Stored) : Option Datum :=
  match s.kind with
  | .text => some (.text s.value)
  | .blank => some .empty
  | .number | .formula =>
    some (match Decimal.float? s.value with
      | some x => .number x
      | none => .text s.value)
  | .moment =>
    some (match Decimal.float? s.value with
      | some x => .moment x
      | none => .text s.value)
  | .boolean => some (.boolean (s.value ≠ "0"))
  | .error => if s.value ∈ errors then some .error else none
  | .stamp => some (.stamp s.value)

end Stored

/-- A cell at a position. -/
structure Placed where
  row : Nat
  column : Nat
  cell : Cell
  deriving DecidableEq, Repr

/-- The values of a sheet. -/
abbrev Grid := List Stored

namespace Grid

/-- The used cells of a grid, unless a value is an unknown error. Blank cells are not used. -/
def used? (g : Grid) : Option (List Placed) :=
  (g.filter (·.kind ≠ .blank)).mapM fun s =>
    s.datum?.map fun datum => ⟨s.row, s.column, Cell.ofDatum datum⟩

/-- The cell that was placed last at a position. -/
def cellOf (cells : List Placed) (row column : Nat) : Cell :=
  ((cells.reverse.find? fun p => p.row = row ∧ p.column = column).map Placed.cell).join

/-- The table of used cells. -/
def tableOf (cells : List Placed) : Table :=
  match cells.map Placed.row, cells.map Placed.column with
  | row :: rows, column :: columns =>
    let top := rows.foldl min row
    let bottom := rows.foldl max row
    let right := columns.foldl max column
    Table.ofRowsAt
      ((List.range (bottom + 1 - top)).map fun i =>
        (List.range (right + 1)).map fun j => cellOf cells (top + i) j)
      (top + 1)
  | _, _ => Table.ofRowsAt [] 1

/-- The table of a grid, unless a value is an unknown error. -/
def table? (g : Grid) : Option Table :=
  g.used?.map tableOf

end Grid

end MetadataCatalog
