import MetadataCatalog.Catalog.Collection
import MetadataCatalog.Catalog.CollectionName
import MetadataCatalog.Catalog.FilesTables

/-!
# Databases

A database holds collections and, if they have been made, the five tables of datasets and files.
Collections and tables share one space of names, in which case does not matter: opening a
collection or the tables makes what is missing and leaves what is there, whatever it is. So a
collection can stand where a table is looked for and the other way round, and then the statements
about it are refused.
-/

namespace MetadataCatalog

/-- The contents of a database; the names of collections are in small letters. -/
structure Database where
  collections : List (String × Collection)
  catalog : Option FilesTables
  deriving DecidableEq, Repr

namespace Database

/-- A database without contents. -/
def empty : Database := ⟨[], none⟩

/-! ## §1 Names in use -/

/-- The collection of the given name. -/
def collection? (db : Database) (name : String) : Option Collection :=
  (db.collections.find? (·.1 = Text.lowerAscii name)).map Prod.snd

/-- Whether there is a collection of the given name. -/
def hasCollection (db : Database) (name : String) : Bool :=
  (db.collection? name).isSome

/-- Whether the name, in small letters, is that of a table inside a collection. -/
def isInner (db : Database) (name : String) : Bool :=
  db.collections.any fun (collection, _) => (CollectionName.innerTables collection).contains name

/-- Whether anything has the given name. -/
def inUse (db : Database) (name : String) : Bool :=
  let name := Text.lowerAscii name
  db.hasCollection name || db.isInner name ||
    (db.catalog.isSome && CatalogTable.all.any (·.name = name))

/-- Whether a collection stands where a table of datasets and files is looked for. -/
def covered (db : Database) (table : CatalogTable) : Bool :=
  db.hasCollection table.name

/-! ## §2 Collections -/

/-- The database in which a collection of an accepted name has been opened: a new name gets an empty
collection. -/
def openCollection (db : Database) (name : String) : Except Fault Database :=
  let word := Text.lowerAscii name
  if CollectionName.service word = .none then .error .database
  else if db.inUse word then .ok db
  else if (CollectionName.innerTables word).any db.hasCollection then .error .database
  else .ok { db with collections := db.collections ++ [(word, [])] }

/-- The database with other records in the collection of the given name. -/
def withCollection (db : Database) (name : String) (records : Collection) : Database :=
  { db with collections := db.collections.map fun (key, old) =>
      (key, if key = Text.lowerAscii name then records else old) }

/-- Adds a record to a collection: the number of the record, and the database afterwards. -/
def insertRecord (db : Database) (name : String) (record : CatalogRecord) :
    Except Fault Nat × Database :=
  match db.collection? name with
  | none => (.error .database, db)
  | some c =>
    let (records, number) := c.insert record
    (.ok number, db.withCollection name records)

/-- The records of a collection that match a query, the best first. -/
def search (db : Database) (name query : String) : Except Fault (List CatalogRecord) := do
  let _ ← Expression.ofQuery query
  match db.collection? name, CollectionName.service name with
  | some c, .full => c.search query
  | some [], .emptySearch => .ok []
  | some c, .fruitlessSearch =>
    match c.search query with
    | .ok (_ :: _) => .error .database
    | outcome => outcome
  | _, _ => .error .database

/-! ## §3 Datasets and files -/

/-- The database in which the five tables have been opened. -/
def openCatalog (db : Database) : Database :=
  { db with catalog := some (db.catalog.getD .empty) }

/-- The five tables. -/
def tables (db : Database) : FilesTables :=
  db.catalog.getD .empty

/-- Which statements about the five tables are refused: those about a covered table. -/
def refuses (db : Database) : FilesTables.Refuses :=
  fun _ table => db.covered table

/-- Registers a dataset and its files: the number of the dataset, and the database afterwards. -/
def insertDataset (db : Database) (d : Dataset) (files : List String) :
    Except Fault Nat × Database :=
  let (outcome, tables) := db.tables.insertDataset db.refuses d files
  (outcome, { db with catalog := some tables })

/-- The number of a dataset, if it is registered. -/
def datasetId (db : Database) (d : Dataset) : Except Fault (Option Nat) :=
  if CatalogTable.all.any fun table => table ≠ .files && db.covered table then .error .database
  else .ok (db.tables.datasetId? d)

/-- The files of a dataset, if it is registered. -/
def findFiles (db : Database) (d : Dataset) : Except Fault (Option (List String)) := do
  match ← db.datasetId d with
  | none => .ok none
  | some number =>
    if db.covered .files then .error .database else .ok (some (db.tables.filesOf number))

/-- The number of rows of a table, or of records of the collection in its place. -/
def count (db : Database) (table : CatalogTable) : Nat :=
  match db.collection? table.name with
  | some c => c.length
  | none => db.tables.count table

end Database

end MetadataCatalog
