import MetadataCatalog.Json.Printer
import MetadataCatalog.Json.Prune
import MetadataCatalog.Schema.ValueLists

/-!
# Schema documents

The schema document of a site is the list of its field descriptors: the records of the clean sheet
with their lists of values, without nulls. The key template is one object with every key and no
values. Documents are written with four spaces of indentation into `NAME.json`.
-/

namespace MetadataCatalog.Schema

/-! ## §1 Documents -/

/-- The field descriptors of a schema sheet. -/
def descriptors (t : Table) (d : Dictionary) : Except Fault Json := do
  let sheet ← CleanSheet.ofTable t d
  let layout ← Layout.resolve sheet d
  match ValueLists.attach sheet layout (Record.ofSheet sheet layout) with
  | (_, some fault) => .error fault
  | (records, none) => .ok (Json.prune (.list (records.map .object)))

/-- The keys of a schema sheet, each with the value null. -/
def keyTemplate (t : Table) (d : Dictionary) : Except Fault Json := do
  let sheet ← CleanSheet.ofTable t d
  .ok (.object (Json.Entries.merge (sheet.keys.map fun key => (key, .null))))

/-- The text of a document. -/
def render (document : Json) : String :=
  document.indented 4

/-! ## §2 Names -/

/-- The sheet that describes a site's fields. -/
def sheetName (site : String) : String :=
  site ++ "_schema"

/-- The file that a document is written to: named for the output if that is not blank, else for
the site. -/
def outputPath (output : Option String) (site : String) : String :=
  let base := match output with
    | some name => if Text.isBlankText name then site else name
    | none => site
  base ++ ".json"

end MetadataCatalog.Schema
