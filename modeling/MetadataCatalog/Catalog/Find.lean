import MetadataCatalog.Catalog.Stores

/-!
# Finding documents

A query is answered with the records that match it, on request with the files of the dataset that
each record names. A dataset that is not registered has no files.
-/

namespace MetadataCatalog

/-- A record that was found, and the files of its dataset if they were asked for. -/
structure Hit where
  record : CatalogRecord
  files : Option (List String)
  deriving DecidableEq, Repr

namespace Hit

/-- The document that a hit is. -/
def asJson (h : Hit) : Json :=
  .object
    ([("meta", .text h.record.text), ("dataset", .text h.record.dataset),
      ("did", .integer h.record.datasetId)] ++
      match h.files with
      | some files => [("files", .list (files.map .text))]
      | none => [])

end Hit

section Keepers

variable {σ : Type}

/-- The files of the dataset that a text names. -/
def filesFor (datasets : DatasetKeeper σ) (dataset : String) : Work σ (List String) := do
  let d ← Work.ofExcept (Dataset.ofText dataset)
  return (← datasets.findFiles d).getD []

/-- The hits of records, each with its files if there is a keeper of datasets to be asked. -/
def hitsOf (datasets : Option (DatasetKeeper σ)) : List CatalogRecord → Work σ (List Hit)
  | [] => return []
  | record :: rest => do
    let files ← match datasets with
      | some k => some <$> filesFor k record.dataset
      | none => pure none
    return { record, files } :: (← hitsOf datasets rest)

/-- The hits of a query. -/
def findWith (records : RecordKeeper σ) (datasets : Option (DatasetKeeper σ)) (query : String) :
    Work σ (List Hit) := do
  hitsOf datasets (← records.search query)

end Keepers

/-- The hits of a query in a collection, with the files from the five tables if they are given. -/
def findIn (store : Store) (tables : Option Connection) (query : String) : Action (List Hit) :=
  findWith store.keeper (tables.map Connection.keeper) query

/-- The hits of a query in the collection that the parameters name. -/
def find (p : Params) (query : String) (withFiles : Bool) : Action (List Hit) := do
  Action.ofExcept (p.require [.dburi])
  if withFiles then Action.ofExcept (p.require [.filesdb])
  let store ← Store.ofParams p
  let tables ← if withFiles then some <$> Connection.tablesOfParams p else pure none
  findIn store tables query

/-- The files of a dataset in the tables that the parameters name. -/
def datasetFiles (p : Params) (dataset : String) : Action (List String) := do
  Action.ofExcept (p.require [.filesdb])
  let tables ← Connection.tablesOfParams p
  filesFor tables.keeper dataset

end MetadataCatalog
