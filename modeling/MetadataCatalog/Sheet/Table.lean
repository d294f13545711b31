import MetadataCatalog.Sheet.Cell
import MetadataCatalog.Decimal.Digits

/-!
# Tables

A table is a header row and data rows of one width. It is made from raw rows of any lengths: the
width is that of the widest raw row, a blank header cell gets a generated name, the data rows are
padded with empty cells, and the wholly empty rows at the end are left out. A table remembers on
which row of its sheet the header stands, so that data rows can be named as they are seen there.
-/

namespace MetadataCatalog

/-- A header row and data rows of one width. -/
structure Table where
  headers : List String
  rows : List (List Cell)
  headerRow : Nat
  deriving DecidableEq, Repr

namespace Table

/-! ## §1 Making a table -/

/-- The name of column `j` when its header cell is blank. -/
def generatedHeader (j : Nat) : String :=
  "col_" ++ Decimal.natText j

/-- The length of the longest row. -/
def widest (rows : List (List Cell)) : Nat :=
  rows.foldl (fun width row => max width row.length) 0

/-- A row made `width` cells long. -/
def padded (width : Nat) (row : List Cell) : List Cell :=
  row.take width ++ List.replicate (width - row.length) none

/-- Whether every cell of a row is empty. -/
def isBlankRow (row : List Cell) : Bool :=
  row.all Option.isNone

/-- Rows without the blank ones at their end. -/
def dropBlankEnd (rows : List (List Cell)) : List (List Cell) :=
  (rows.reverse.dropWhile isBlankRow).reverse

/-- The headers of a table of the given width, from the raw header row. -/
def headersOf (width : Nat) (header : List Cell) : List String :=
  (List.range width).map fun j => ((header[j]?).join).getD (generatedHeader j)

/-- The table of raw rows whose first row stands on row `headerRow` of the sheet. -/
def ofRowsAt (raw : List (List Cell)) (headerRow : Nat) : Table :=
  let width := widest raw
  { headers := headersOf width (raw.headD [])
    rows := dropBlankEnd (raw.tail.map (padded width))
    headerRow := max headerRow 1 }

/-- The table of raw rows whose first row is the first row of the sheet. -/
def ofRows (raw : List (List Cell)) : Table :=
  ofRowsAt raw 1

/-! ## §2 Reading a table -/

/-- The number of columns. -/
def width (t : Table) : Nat :=
  t.headers.length

/-- The row of the sheet on which data row `i` stands. -/
def sheetRow (t : Table) (i : Nat) : Nat :=
  t.headerRow + 1 + i

/-- The leftmost column with the given header. -/
def columnIndex? (t : Table) (header : String) : Option Nat :=
  t.headers.findIdx? (· = header)

end Table

/-- The cell of a row in a column; beyond the end of the row it is empty. -/
def cellAt (row : List Cell) (column : Nat) : Cell :=
  (row[column]?).join

end MetadataCatalog
