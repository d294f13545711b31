import MetadataCatalog.Catalog.Find
import MetadataCatalog.Catalog.Ingest
import MetadataCatalog.Command.Invocation
import MetadataCatalog.Sheet.Workbook
import MetadataCatalog.Storage.Saving

/-!
# Running commands

A command works on a tree of files and prints. What it has printed and changed before a fault
remains; the fault is then reported under the name of the command.
-/

namespace MetadataCatalog

/-! ## §1 Printing -/

/-- A workspace, and what has been printed. -/
structure Terminal where
  workspace : Workspace
  printed : String

/-- What is done at a terminal. -/
abbrev Session := ExceptT Fault (StateM Terminal)

namespace Session

/-- Prints a line. -/
def line (s : String) : Session Unit :=
  modify fun t => { t with printed := t.printed ++ s ++ "\n" }

/-- Prints lines one after the other. -/
def lines : List String → Session Unit
  | [] => return ()
  | s :: rest => do
    line s
    lines rest

/-- Works in the workspace. -/
def work {α : Type} (action : Action α) : Session α := do
  let t ← get
  let (outcome, workspace) := action.run t.workspace
  set { t with workspace }
  ExceptT.mk (pure outcome)

/-- The outcome of something that changes nothing. -/
def ofExcept {α : Type} (outcome : Except Fault α) : Session α :=
  ExceptT.mk (pure outcome)

/-- A question about the files. -/
def askFiles {α : Type} (ask : Files → Except Fault α) : Session α :=
  work (Action.askFiles ask)

/-! ## §2 The commands -/

/-- Saves a document. -/
def save (path : String) (document : Json) : Session String := do
  let t ← get
  let (outcome, files) := t.workspace.files.save path document
  set { t with workspace := { t.workspace with files } }
  ofExcept outcome

/-- Writes the schema document or the key template of a site, and prints it. -/
def schema (workbook site : String) (output : Option String) (keysOnly : Bool) : Session Unit := do
  let book ← askFiles (Workbook.ofPath · workbook)
  let document ← askFiles fun tree =>
    if keysOnly then book.keyTemplate tree site else book.descriptors tree site
  let text ← save (Schema.outputPath output site) document
  line text

/-- The line of a row of texts under its number. -/
def rowLine (number : Nat) (texts : List String) : String :=
  "  " ++ Decimal.natText number ++ ": " ++ Text.join " | " texts

/-- The lines about a sheet, with so many rows of it. -/
def sheetLines (name : String) (rows : Nat) (t : Table) : List String :=
  ["",
   "Sheet: " ++ name,
   "Size: " ++ Decimal.natText (t.rows.length + 1) ++ " rows x " ++ Decimal.natText t.width ++
     " cols",
   "First " ++ Decimal.natText rows ++ " rows:",
   rowLine 0 t.headers] ++
  (t.rows.take (rows - 1)).zipIdx.map fun (row, i) =>
    rowLine (i + 1) (row.map fun cell => cell.getD "")

/-- Prints the given sheets. -/
def showSheets (book : Workbook) (rows : Nat) : List String → Session Unit
  | [] => return ()
  | name :: rest => do
    let table ← askFiles (book.sheet · name)
    lines (sheetLines name rows table)
    showSheets book rows rest

/-- Prints the names of the sheets, and the first rows of one sheet or of all. -/
def inspect (workbook : String) (sheet : Option String) (rows : Nat) : Session Unit := do
  let book ← askFiles (Workbook.ofPath · workbook)
  let names ← askFiles book.sheetNames
  line ("Workbook: " ++ book.path)
  line ("Sheets (" ++ Decimal.natText names.length ++ "): " ++ Text.join ", " names)
  showSheets book rows (match sheet with
    | some name => [name]
    | none => names)

/-- Makes the five tables. -/
def initDb (params : String) : Session Unit := do
  let p ← askFiles (Params.load · params)
  let _ ← work (initTables p)
  line ("files database ready: " ++ (← ofExcept (p.get .filesdb)))

/-- The line about an ingest. -/
def ingestLine : Option Report → String
  | some r =>
    "ingest complete: dataset=" ++ r.dataset ++ " did=" ++ Decimal.natText r.datasetId ++
      " files=" ++ Decimal.natText r.fileCount ++ " meta_id=" ++ Decimal.natText r.recordId
  | none => "ingest skipped: document has no text"

/-- Ingests a document. -/
def ingest (params : String) : Session Unit := do
  let p ← askFiles (Params.load · params)
  line (ingestLine (← work (MetadataCatalog.ingest p)))

/-- The lines about a hit. -/
def hitLines (h : Hit) : List String :=
  h.record.text ::
    match h.files with
    | some files =>
      ("Associated dataset " ++ h.record.dataset) :: "Associated files:" :: files
    | none => []

/-- Prints the hits of a query. -/
def find (params query : String) (listFiles json : Bool) : Session Unit := do
  let p ← askFiles (Params.load · params)
  let hits ← work (MetadataCatalog.find p query listFiles)
  if json then line (Json.indented 2 (.list (hits.map Hit.asJson)))
  else lines (hits.flatMap hitLines)

/-- Prints the files of a dataset. -/
def files (params dataset : String) : Session Unit := do
  let p ← askFiles (Params.load · params)
  lines (← work (datasetFiles p dataset))

end Session

/-- Runs a command. -/
def Command.run : Command → Session Unit
  | .schema workbook site output keysOnly => Session.schema workbook site output keysOnly
  | .inspect workbook sheet rows => Session.inspect workbook sheet rows
  | .initDb params => Session.initDb params
  | .ingest params => Session.ingest params
  | .find params query listFiles json => Session.find params query listFiles json
  | .files params dataset => Session.files params dataset

/-! ## §3 Outcomes -/

/-- How a run ended: before a command could be run, or with a command that printed something and
perhaps failed. -/
inductive Ending where
  | stopped (why : UsageStop)
  | ran (name : CommandName) (printed : String) (fault : Option Fault)

namespace Ending

/-- The exit code: zero for success, one for a fault, two for a usage error. -/
def code : Ending → Nat
  | .stopped why => if why.isError then 2 else 0
  | .ran _ _ fault => if fault.isSome then 1 else 0

/-- The name and the version of the program. -/
def versionLine : String := "chess-meta 0.1.0\n"

/-- What a run prints, unless that is help or a message about usage. -/
def printed? : Ending → Option String
  | .stopped .version => some versionLine
  | .stopped _ => none
  | .ran _ printed _ => some printed

/-- The report of a fault. -/
def report (name : CommandName) (fault : Fault) : String :=
  name.text ++ " failed: " ++ fault.message

end Ending

/-- Runs the command that arguments are, on a tree of files: how it ended, and the tree
afterwards. -/
def runArguments (files : Files) (arguments : List String) : Ending × Files :=
  match Invocation.ofArguments arguments with
  | .error why => (.stopped why, files)
  | .ok invocation =>
    let (outcome, t) := invocation.command.run.run ⟨.ofFiles files, ""⟩
    (.ran invocation.command.name t.printed (match outcome with
        | .ok () => none
        | .error fault => some fault),
      t.workspace.files)

end MetadataCatalog
