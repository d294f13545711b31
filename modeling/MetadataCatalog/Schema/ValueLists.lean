import MetadataCatalog.Schema.Records

/-!
# Lists of permitted values

A row whose cell in the values column is filled lists the permitted values of its field: an empty
text for "no selection", then every filled cell from the values column to the end of the row. The
list is attached to the record with the row's key, wherever that record stands; a record of a row
without a list gets null.
-/

namespace MetadataCatalog.ValueLists

/-- The permitted values of a row, if its cell in the values column is filled. -/
def ofCells (cells : List Cell) (valuesColumn : Nat) : Option (List String) :=
  (cellAt cells valuesColumn).map fun _ => "" :: (cells.drop valuesColumn).filterMap id

/-- A list of values as a value of a record. -/
def asJson : Option (List String) → Json
  | some values => .list (values.map .text)
  | none => .null

/-- The last row of a sheet with the given key. -/
def rowOf? (s : CleanSheet) (key : String) : Option CleanRow :=
  s.rows.reverse.find? (·.key = key)

/-- The number in the sheet of the row at a position, or zero where there is none. -/
def rowNumberAt (s : CleanSheet) (position : Nat) : Nat :=
  (s.rows[position]?.map CleanRow.row).getD 0

/-- The record at a position with its list of values. -/
def attachOne (s : CleanSheet) (layout : Layout) (position : Nat) (record : Record) :
    Except Fault Record :=
  match (record.get? layout.keyField).bind Json.text? with
  | none => .error (.malformedRow (rowNumberAt s position) .noKey)
  | some key =>
    match rowOf? s key with
    | none => .error (.malformedRow (rowNumberAt s position) (.unknownKey key))
    | some row =>
      .ok (record.put layout.valuesField (asJson (ofCells row.cells layout.valuesColumn)))

/-- The records from a position on with their lists of values, up to the first record that cannot
be joined; that one and those after it stay as they are. -/
def attachFrom (s : CleanSheet) (layout : Layout) (position : Nat) :
    List Record → List Record × Option Fault
  | [] => ([], none)
  | record :: rest =>
    match attachOne s layout position record with
    | .error fault => (record :: rest, some fault)
    | .ok attached =>
      let (more, outcome) := attachFrom s layout (position + 1) rest
      (attached :: more, outcome)

/-- The records with their lists of values, and the fault that ended the joining, if one did. -/
def attach (s : CleanSheet) (layout : Layout) (records : List Record) :
    List Record × Option Fault :=
  attachFrom s layout 0 records

end MetadataCatalog.ValueLists
