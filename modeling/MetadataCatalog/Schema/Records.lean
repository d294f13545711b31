import MetadataCatalog.Json.Value
import MetadataCatalog.Schema.Layout

/-!
# Records

A record holds what one row of a clean sheet says about a field: the key, and each attribute with
the text of its cell, or null where the cell is empty.
-/

namespace MetadataCatalog

/-- The attributes of one field in order. -/
abbrev Record := Json.Entries

namespace Record

/-- The value of a cell: its text, or null. -/
def cellValue : Cell → Json
  | some s => .text s
  | none => .null

/-- The record of a row. -/
def ofRow (layout : Layout) (row : CleanRow) : Record :=
  layout.attributes.foldl
    (fun record (column, name) => record.put name (cellValue (cellAt row.cells column)))
    [(layout.keyField, .text row.key)]

/-- The records of a sheet, one for each row. -/
def ofSheet (s : CleanSheet) (layout : Layout) : List Record :=
  s.rows.map (ofRow layout)

end Record

end MetadataCatalog
