import MetadataCatalog.Catalog.Stores
import MetadataCatalog.Markup.DocumentText

/-!
# Ingesting documents

To ingest a document is to register its dataset with the files in a folder, and then to add its text
to the collection under the number of the dataset. A document without text is passed over before
anything is opened.
-/

namespace MetadataCatalog

/-! ## §1 What is read -/

namespace FileTree

/-- The name of the body in the archive that a document is. -/
def documentBody : String := "word/document.xml"

/-- The text of the document that a path leads to: of the body of an archive if the path ends in
`docx`, else of the file. -/
def readDocument (tree : Files) (path : String) : Except Fault String :=
  if Path.hasExtension path "docx" then
    match tree.node? path with
    | none => .error (.inaccessible path)
    | some (.file (.archive entries)) =>
      match entries.reverse.find? (·.1 = documentBody) with
      | some (_, body) => DocumentText.ofBody body
      | none => .error .document
    | some _ => .error .document
  else tree.readText path

/-- The files below the folder that a path leads to, and the links there that lead to files, by paths
that begin with it. A folder there cannot be opened if its path is too long, and then nothing is
listed; a file whose path is too long is passed over. -/
def listFiles (tree : Files) (path : String) : Except Fault (List String) :=
  match tree.below? path with
  | none => .error (.refused (.notAFolder path))
  | some found =>
    match found.find? fun (way, node) => node.isFolder && (tree.names? way).isNone with
    | some (way, _) => .error (.inaccessible way)
    | none => .ok ((found.map Prod.fst).filter fun way => (tree.read? way).isSome)

end FileTree

/-! ## §2 What is kept -/

/-- What an ingest has done: the dataset with its number, how many files were listed, and the number
of the record. -/
structure Report where
  dataset : String
  datasetId : Nat
  fileCount : Nat
  recordId : Nat
  deriving DecidableEq, Repr

/-- Registers a dataset with its files, and adds a text under its number. -/
def ingestWith {σ : Type} (records : RecordKeeper σ) (datasets : DatasetKeeper σ) (d : Dataset)
    (text : String) (files : List String) : Work σ Report := do
  let datasetId ← datasets.insertDataset d files
  let recordId ← records.insert { text, dataset := d.text, datasetId }
  return { dataset := d.text, datasetId, fileCount := files.length, recordId }

/-- Ingests a text into a collection and the five tables. -/
def ingestInto (store : Store) (tables : Connection) (d : Dataset) (text : String)
    (files : List String) : Action Report :=
  ingestWith store.keeper tables.keeper d text files

/-- The parameters that an ingest needs. -/
def ingestKeys : List ParamKey :=
  [.fname, .path, .dburi, .filesdb, .experiment, .processing, .tier]

/-- The dataset that the parameters name. -/
def Params.dataset (p : Params) : Except Fault Dataset := do
  let experiment ← p.get .experiment
  let processing ← p.get .processing
  let tier ← p.get .tier
  Dataset.ofParts experiment processing tier

/-- Makes the five tables that the parameters name. -/
def initTables (p : Params) : Action Connection := do
  Action.ofExcept (p.require [.filesdb])
  Connection.tablesOfParams p

/-- Ingests the document that the parameters name; there is no report if it has no text. -/
def ingest (p : Params) : Action (Option Report) := do
  Action.ofExcept (p.require ingestKeys)
  let document ← Action.ofExcept (p.get .fname)
  let dataset ← Action.ofExcept p.dataset
  let text ← Action.askFiles (·.readDocument document)
  if Text.isBlankText text then return none
  else
    let folder ← Action.ofExcept (p.get .path)
    let files ← Action.askFiles (·.listFiles folder)
    let store ← Store.ofParams p
    let tables ← Connection.tablesOfParams p
    return some (← ingestInto store tables dataset text files)

end MetadataCatalog
