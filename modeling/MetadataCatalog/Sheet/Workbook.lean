import MetadataCatalog.Schema.Document
import MetadataCatalog.Storage.Content

/-!
# Workbooks

A workbook is a spreadsheet file, or a folder in which the sheet `NAME` is the file `NAME.csv`. The
names of the sheets of a folder are those of its entries with the ending `csv` in any case, sorted.

The names of the sheets of a spreadsheet are read when it is opened, and each sheet when it is asked
for. So the names stay when the file is overwritten, and then no sheet can be read.
-/

namespace MetadataCatalog

/-- An open workbook: a spreadsheet with its place and its sheets, or a folder. -/
inductive Workbook where
  | spreadsheet (path : String) (place : List String) (sheets : List (String × Grid))
  | folder (path : String)

namespace Workbook

/-- The path that a workbook was opened by. -/
def path : Workbook → String
  | .spreadsheet path .. => path
  | .folder path => path

/-- The endings that name other formats of spreadsheets. Whatever has another ending, or none, is
known by its content. -/
def otherEndings : List String := ["xls", "xla", "xlsb", "ods"]

/-- Opens the workbook that a path leads to. -/
def ofPath (tree : Files) (path : String) : Except Fault Workbook :=
  match tree.placeOf path with
  | .taken place =>
    match tree.at? place with
    | none => .error (.refused (.workbookNotFound path))
    | some (.folder _) => .ok (.folder path)
    | some (.file (.spreadsheet sheets)) =>
      if (Path.extension? path).any otherEndings.contains then .error .workbook
      else .ok (.spreadsheet path place sheets)
    | some _ => .error .workbook
  | _ => .error (.refused (.workbookNotFound path))

/-- The name of the sheet that an entry of a folder holds, if its ending says so. -/
def sheetOfEntry? (entry : String) : Option String :=
  if Path.hasExtension entry "csv" then Path.stem? entry else none

/-- The names of the sheets. -/
def sheetNames (tree : Files) : Workbook → Except Fault (List String)
  | .spreadsheet _ _ sheets => .ok (sheets.map Prod.fst)
  | .folder path =>
    match tree.names? path with
    | none => .error (.inaccessible path)
    | some names => .ok ((names.filterMap sheetOfEntry?).mergeSort fun a b => decide (a ≤ b))

/-- The file of a sheet in a folder. -/
def sheetFile (folder name : String) : String :=
  Path.join folder (name ++ ".csv")

/-- Whether the spreadsheet at a place has not been overwritten. One that is gone can still be
read. -/
def isIntact (tree : Files) (place : List String) : Bool :=
  match tree.at? place with
  | none | some (.file (.spreadsheet _)) => true
  | some _ => false

/-- The table of a sheet that is known to be there. -/
def table? (tree : Files) (name : String) : Workbook → Option Table
  | .spreadsheet _ place sheets =>
    if isIntact tree place then (sheets.find? (·.1 = name)).bind fun (_, grid) => grid.table?
    else none
  | .folder path =>
    ((tree.read? (sheetFile path name)).bind Content.records?).map fun records =>
      Table.ofRows (records.map (·.map Cell.ofText))

/-- The table of a sheet. -/
def sheet (tree : Files) (w : Workbook) (name : String) : Except Fault Table := do
  let available ← w.sheetNames tree
  if !available.contains name then .error (.missingSheet name available)
  else match w.table? tree name with
    | some table => .ok table
    | none => .error .workbook

/-- The dictionary of a workbook. -/
def dictionary (tree : Files) (w : Workbook) : Except Fault Dictionary :=
  (w.sheet tree Dictionary.sheetName).map Dictionary.ofTable

/-- The schema sheet of a site, and the dictionary. -/
def schemaSheet (tree : Files) (w : Workbook) (site : String) :
    Except Fault (Table × Dictionary) := do
  let table ← w.sheet tree (Schema.sheetName site)
  let dictionary ← w.dictionary tree
  .ok (table, dictionary)

/-- The field descriptors of a site. -/
def descriptors (tree : Files) (w : Workbook) (site : String) : Except Fault Json := do
  let (table, dictionary) ← w.schemaSheet tree site
  Schema.descriptors table dictionary

/-- The key template of a site. -/
def keyTemplate (tree : Files) (w : Workbook) (site : String) : Except Fault Json := do
  let (table, dictionary) ← w.schemaSheet tree site
  Schema.keyTemplate table dictionary

end Workbook

end MetadataCatalog
