import MetadataCatalog.Catalog.Keepers
import MetadataCatalog.Catalog.Params
import MetadataCatalog.Catalog.Workspace

/-!
# Stores

The texts of documents are kept in a collection and the files of datasets in the five tables. Both
are opened as the parameters say. The address of a collection names a database file, or a server,
which is never reached.
-/

namespace MetadataCatalog

/-- An open collection: the database and the name. -/
structure Store where
  connection : Connection
  collection : String
  deriving DecidableEq, Repr

namespace Store

/-- The name of the collection when the parameters give none. -/
def defaultCollection : String := "metadata"

/-- The beginnings of the addresses of servers. -/
def serverSchemes : List String := ["mongodb://", "mongodb+srv://"]

/-- The beginning of the addresses of database files. -/
def fileScheme : String := "sqlite://"

/-- Opens a collection in a database; a new name gets an empty collection. -/
def ofConnection (connection : Connection) (collection : String) : Action Store := do
  Action.ofExcept (CollectionName.check collection)
  connection.make fun db => db.openCollection collection
  return { connection, collection }

/-- Opens a collection in a spare database of its own. -/
def openSpare (collection : String) : Action Store := do
  let connection ← Connection.ofAddress Address.sparePath
  ofConnection connection collection

/-- Connects to a collection on a server. No server is reached, whatever the address and the names
are. -/
def connectServer (_address _database _collection : String) : Action Store :=
  throw .storeUnavailable

/-- Opens the collection that the parameters name on the server at an address. -/
def ofServer (address : String) (p : Params) : Action Store := do
  Action.ofExcept (p.require [.dbname, .dbcoll])
  let database ← Action.ofExcept (p.get .dbname)
  let collection ← Action.ofExcept (p.get .dbcoll)
  connectServer address database collection

/-- Opens the collection that the parameters name. -/
def ofParams (p : Params) : Action Store := do
  let address ← Action.ofExcept (p.get .dburi)
  if serverSchemes.any fun scheme => (Text.stripStart? scheme address).isSome then
    ofServer address p
  else
    match Text.stripStart? fileScheme address with
    | none => throw (.refused (.storeAddress address))
    | some path =>
      let connection ← Connection.ofAddress path
      ofConnection connection ((p.given .dbcoll).getD defaultCollection)

/-- Adds a record to a collection: the number of the record. -/
def insert (s : Store) (record : CatalogRecord) : Action Nat :=
  s.connection.update true fun db => db.insertRecord s.collection record

/-- The records that match a query, the best first. -/
def search (s : Store) (query : String) : Action (List CatalogRecord) :=
  s.connection.query fun db => db.search s.collection query

/-- A collection as a keeper of records. -/
def keeper (s : Store) : RecordKeeper Workspace where
  insert := s.insert
  search := s.search

end Store

namespace Connection

/-- Opens the five tables in a database. -/
def openTables (c : Connection) : Action Unit :=
  c.make fun db => .ok db.openCatalog

/-- Opens the five tables that the parameters name. -/
def tablesOfParams (p : Params) : Action Connection := do
  let path ← Action.ofExcept (p.get .filesdb)
  let c ← ofAddress path
  c.openTables
  return c

/-- Registers a dataset and its files: the number of the dataset. Every file is written, also one
that is registered already. -/
def insertDataset (c : Connection) (d : Dataset) (files : List String) : Action Nat :=
  c.update (files ≠ []) fun db => db.insertDataset d files

/-- The number of a dataset, if it is registered. -/
def datasetId (c : Connection) (d : Dataset) : Action (Option Nat) :=
  c.query fun db => db.datasetId d

/-- The files of a dataset, if it is registered. -/
def findFiles (c : Connection) (d : Dataset) : Action (Option (List String)) :=
  c.query fun db => db.findFiles d

/-- The number of rows of the table of the given name. -/
def count (c : Connection) (table : String) : Action Nat := do
  let table ← Action.ofExcept (CatalogTable.ofName table)
  c.query fun db => .ok (db.count table)

/-- The five tables as a keeper of datasets. -/
def keeper (c : Connection) : DatasetKeeper Workspace where
  insertDataset := c.insertDataset
  findFiles := c.findFiles

end Connection

end MetadataCatalog
