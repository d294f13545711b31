import MetadataCatalog.Catalog.Dataset

/-!
# The tables of datasets and files

Five tables record which files belong to which dataset: three tables number the names of
experiments, processings and tiers, one numbers the datasets by those numbers, and one numbers the
files of the datasets. Each table counts its rows from one and never uses a number twice.

A dataset is registered by a row of statements, each about one table. Any of them may be refused by
the database; then nothing of the registration remains.
-/

namespace MetadataCatalog

/-! ## §1 Tables -/

/-- A table whose rows are numbered as they come; `last` is the number that was given last. -/
structure Numbered (α : Type) where
  rows : List (Nat × α)
  last : Nat
  deriving DecidableEq, Repr

namespace Numbered

variable {α : Type}

/-- The table without rows. -/
def empty : Numbered α := ⟨[], 0⟩

/-- The number of the first row with the given contents. -/
def numberOf? [DecidableEq α] (t : Numbered α) (contents : α) : Option Nat :=
  (t.rows.find? fun row => row.2 = contents).map Prod.fst

/-- The table with one more row. -/
def add (t : Numbered α) (contents : α) : Numbered α :=
  ⟨t.rows ++ [(t.last + 1, contents)], t.last + 1⟩

/-- The table with one more row, unless there is a row with the same contents. -/
def addNew [DecidableEq α] (t : Numbered α) (contents : α) : Numbered α :=
  if (t.numberOf? contents).isSome then t else t.add contents

/-- The number of rows. -/
def size (t : Numbered α) : Nat :=
  t.rows.length

end Numbered

/-- A dataset by the numbers of its parts. -/
structure DatasetRow where
  experiment : Nat
  processing : Nat
  tier : Nat
  deriving DecidableEq, Repr

/-- A file by the number of its dataset and its name. -/
structure FileRow where
  dataset : Nat
  name : String
  deriving DecidableEq, Repr

/-- The five tables. -/
structure FilesTables where
  experiments : Numbered String
  processing : Numbered String
  tiers : Numbered String
  datasets : Numbered DatasetRow
  files : Numbered FileRow
  deriving DecidableEq, Repr

/-- The five tables by name. -/
inductive CatalogTable where
  | names (part : DatasetPart)
  | datasets
  | files
  deriving DecidableEq, Repr

namespace CatalogTable

/-- All five tables. -/
def all : List CatalogTable :=
  [.names .experiment, .names .processing, .names .tier, .datasets, .files]

/-- The name of a table. -/
def name : CatalogTable → String
  | .names .experiment => "experiments"
  | .names .processing => "processing"
  | .names .tier => "tiers"
  | .datasets => "datasets"
  | .files => "files"

/-- The table of the given name. -/
def ofName (name : String) : Except Fault CatalogTable :=
  match all.find? (·.name = name) with
  | some table => .ok table
  | none => .error (.refused (.unknownTable name))

end CatalogTable

namespace FilesTables

/-- Five tables without rows. -/
def empty : FilesTables := ⟨.empty, .empty, .empty, .empty, .empty⟩

/-- The table of the names of one part. -/
def names (t : FilesTables) : DatasetPart → Numbered String
  | .experiment => t.experiments
  | .processing => t.processing
  | .tier => t.tiers

/-- The tables with another table of the names of one part. -/
def withNames (t : FilesTables) (names : Numbered String) : DatasetPart → FilesTables
  | .experiment => { t with experiments := names }
  | .processing => { t with processing := names }
  | .tier => { t with tiers := names }

/-- The number of rows of a table. -/
def count (t : FilesTables) : CatalogTable → Nat
  | .names part => (t.names part).size
  | .datasets => t.datasets.size
  | .files => t.files.size

/-! ## §2 Questions -/

/-- The number of a dataset. -/
def datasetId? (t : FilesTables) (d : Dataset) : Option Nat := do
  let experiment ← t.experiments.numberOf? d.experiment
  let processing ← t.processing.numberOf? d.processing
  let tier ← t.tiers.numberOf? d.tier
  t.datasets.numberOf? { experiment, processing, tier }

/-- The names of the files of the dataset with the given number, in the order of the table. -/
def filesOf (t : FilesTables) (dataset : Nat) : List String :=
  t.files.rows.filterMap fun (_, file) => if file.dataset = dataset then some file.name else none

/-- The files of a dataset, if it is registered. -/
def findFiles? (t : FilesTables) (d : Dataset) : Option (List String) :=
  (t.datasetId? d).map t.filesOf

/-! ## §3 Statements -/

/-- The statements that register a dataset, by the type of their answers. -/
inductive Statement : Type → Type where
  | findName (part : DatasetPart) (name : String) : Statement (Option Nat)
  | addName (part : DatasetPart) (name : String) : Statement Nat
  | findDataset (row : DatasetRow) : Statement (Option Nat)
  | addDataset (row : DatasetRow) : Statement Nat
  | prepareFile : Statement Unit
  | addFile (row : FileRow) : Statement Unit

/-- The table that a statement is about. -/
def Statement.table {α : Type} : Statement α → CatalogTable
  | .findName part _ => .names part
  | .addName part _ => .names part
  | .findDataset _ => .datasets
  | .addDataset _ => .datasets
  | .prepareFile => .files
  | .addFile _ => .files

/-- The answer of a statement and the tables after it. A file that its dataset has already is not
added again. -/
def execute {α : Type} (t : FilesTables) : Statement α → α × FilesTables
  | .findName part name => ((t.names part).numberOf? name, t)
  | .addName part name =>
    let names := (t.names part).add name
    (names.last, t.withNames names part)
  | .findDataset row => (t.datasets.numberOf? row, t)
  | .addDataset row =>
    let datasets := t.datasets.add row
    (datasets.last, { t with datasets })
  | .prepareFile => ((), t)
  | .addFile row => ((), { t with files := t.files.addNew row })

/-! ## §4 Transactions -/

/-- The tables as a transaction sees them, and how many statements it has tried. -/
structure Session where
  tables : FilesTables
  tried : Nat

/-- A row of statements, which ends when one of them fails. -/
abbrev Transaction := Work Session

/-- Which statements the database refuses, by their position and their table. -/
abbrev Refuses := Nat → CatalogTable → Bool

/-- Tries a statement. -/
def perform {α : Type} (refuses : Refuses) (s : Statement α) : Transaction α := do
  let session ← get
  if refuses session.tried s.table then
    set { session with tried := session.tried + 1 }
    throw .database
  else
    let (answer, tables) := session.tables.execute s
    set { tables, tried := session.tried + 1 : Session }
    return answer

/-- The number of a name, which is added if it is new. -/
def numberOfName (refuses : Refuses) (part : DatasetPart) (name : String) : Transaction Nat := do
  match ← perform refuses (.findName part name) with
  | some number => return number
  | none => perform refuses (.addName part name)

/-- The number of a dataset, which is added if it is new. -/
def numberOfDataset (refuses : Refuses) (row : DatasetRow) : Transaction Nat := do
  match ← perform refuses (.findDataset row) with
  | some number => return number
  | none => perform refuses (.addDataset row)

/-- Adds the files of a dataset one after the other. -/
def addFiles (refuses : Refuses) (dataset : Nat) : List String → Transaction Unit
  | [] => return ()
  | name :: rest => do
    perform refuses (.addFile { dataset, name })
    addFiles refuses dataset rest

/-- The statements that register a dataset and its files; the answer is the number of the
dataset. -/
def registration (refuses : Refuses) (d : Dataset) (files : List String) : Transaction Nat := do
  let experiment ← numberOfName refuses .experiment d.experiment
  let processing ← numberOfName refuses .processing d.processing
  let tier ← numberOfName refuses .tier d.tier
  let dataset ← numberOfDataset refuses { experiment, processing, tier }
  perform refuses .prepareFile
  addFiles refuses dataset files
  return dataset

/-- Runs a transaction: its effect counts if it succeeds, and else the tables are as before. -/
def commit {α : Type} (t : FilesTables) (transaction : Transaction α) :
    Except Fault α × FilesTables :=
  match transaction.run ⟨t, 0⟩ with
  | (.ok answer, session) => (.ok answer, session.tables)
  | (.error fault, _) => (.error fault, t)

/-- Registers a dataset and its files: the number of the dataset, and the tables afterwards. -/
def insertDataset (t : FilesTables) (refuses : Refuses) (d : Dataset) (files : List String) :
    Except Fault Nat × FilesTables :=
  t.commit (registration refuses d files)

end FilesTables

end MetadataCatalog
