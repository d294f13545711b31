import MetadataCatalog.Proofs.Catalog.Connections
import MetadataCatalog.Proofs.Catalog.Databases
import MetadataCatalog.Proofs.Catalog.Register

/-!
# Runs on the five tables

Datasets are registered and asked for in any order, in a database that keeps the tables of a
register.

- One call: it is answered as the register answers it, and afterwards the database keeps the tables
  of the register after the call (`answer_of_keeps`).
- A run: by induction, every call of it is answered as the register of all earlier calls answers it
  (`answers_of_keeps`).
- What such answers are is said in terms of what was registered so far (`answers_of_openTables`).
-/

namespace MetadataCatalog

/-! ## §1 Calls and answers -/

/-- What the five tables are asked to do. -/
inductive TablesCall where
  | insertDataset (d : Dataset) (files : List String)
  | datasetId (d : Dataset)
  | findFiles (d : Dataset)
  | count (table : CatalogTable)
  deriving DecidableEq, Repr

/-- What comes back from a call: the number of a dataset, its files, or how many rows there are. -/
inductive TablesAnswer where
  | number (number : Option Nat)
  | files (files : Option (List String))
  | count (rows : Nat)
  deriving DecidableEq, Repr

/-- Carries out a call. -/
def Connection.answer (c : Connection) : TablesCall → Action TablesAnswer
  | .insertDataset d files => do return .number (some (← c.insertDataset d files))
  | .datasetId d => do return .number (← c.datasetId d)
  | .findFiles d => do return .files (← c.findFiles d)
  | .count table => do return .count (← c.count table.name)

/-- Carries out calls one after the other. -/
def Connection.answers (c : Connection) : List TablesCall → Action (List TablesAnswer)
  | [] => return []
  | call :: rest => do
    let first ← c.answer call
    return first :: (← c.answers rest)

namespace Register

/-- The register after a call. -/
def after (r : Register) : TablesCall → Register
  | .insertDataset d files => r ++ [(d, files)]
  | .datasetId _ | .findFiles _ | .count _ => r

/-- The answer that a register gives. Registering a dataset answers the number that the dataset has
from then on. -/
def answer (r : Register) : TablesCall → TablesAnswer
  | .insertDataset d files => .number ((r ++ [(d, files)]).number? d)
  | .datasetId d => .number (r.number? d)
  | .findFiles d => .files (r.files? d)
  | .count table => .count (r.count table)

/-- The answers of a register to calls one after the other. -/
def answers (r : Register) : List TablesCall → List TablesAnswer
  | [] => []
  | call :: rest => r.answer call :: answers (r.after call) rest

end Register

/-! ## §2 One call -/

namespace Connection

variable {c : Connection} {w : Workspace} {db : Database} {r : Register}

/-- **One call** is answered as the register answers it, which the call makes longer. -/
theorem Serves.answer_of_keeps (h : c.Serves w db) (hr : db.Keeps r.tables) (call : TablesCall) :
    ∃ w' db', (c.answer call).run w = (.ok (r.answer call), w') ∧ c.Serves w' db' ∧
      db'.Keeps (r.after call).tables := by
  cases call with
  | insertDataset d files =>
    obtain ⟨w', hrun, hserves, -⟩ := h.run_update (files ≠ []) fun db => db.insertDataset d files
    rw [hr.insertDataset, Register.numberFor_tables, Register.registered_tables] at hrun hserves
    refine ⟨w', _, ?_, hserves, hr.withCatalog _⟩
    rw [Register.answer, Register.number?_concat_self]
    exact Work.run_bind_ok hrun _
  | datasetId d =>
    have hrun := h.run_query fun db => db.datasetId d
    rw [hr.datasetId, Register.datasetId?_tables] at hrun
    exact ⟨w, db, Work.run_bind_ok hrun _, h, hr⟩
  | findFiles d =>
    have hrun := h.run_query fun db => db.findFiles d
    rw [hr.findFiles, Register.findFiles?_tables] at hrun
    exact ⟨w, db, Work.run_bind_ok hrun _, h, hr⟩
  | count table =>
    have hrun : (c.count table.name).run w = (.ok (r.count table), w) := by
      unfold Connection.count
      rw [CatalogTable.ofName_name]
      have hquery := h.run_query fun db => .ok (db.count table)
      rw [hr.count, Register.count_tables] at hquery
      exact hquery
    exact ⟨w, db, Work.run_bind_ok hrun _, h, hr⟩

/-! ## §3 Runs -/

theorem Serves.answers_of_keeps (h : c.Serves w db) (hr : db.Keeps r.tables)
    (calls : List TablesCall) :
    ∃ w', (c.answers calls).run w = (.ok (r.answers calls), w') := by
  induction calls generalizing w db r with
  | nil => exact ⟨w, rfl⟩
  | cons call rest ih =>
    -- the first call leaves a database that keeps the tables of the longer register
    obtain ⟨w₁, db₁, hfirst, hserves, hkeeps⟩ := h.answer_of_keeps hr call
    obtain ⟨w₂, hrest⟩ := ih hserves hkeeps
    refine ⟨w₂, (Work.run_bind_ok hfirst _).trans ?_⟩
    exact Work.run_bind_ok hrest _

/-- **The five tables are a register.** Where the tables begin empty, every call of a run succeeds
and is answered from what was registered before it: a dataset that was not has neither number nor
files and gets the next number, one that was keeps its number whatever comes later, other datasets
change neither its number nor its files, and its files are those given for it, each once and in the
order in which they first came. -/
theorem answers_of_openTables (h : c.Serves w db) (hempty : db.tables = .empty)
    (hfree : ∀ table, db.covered table = false) (calls : List TablesCall) :
    (∃ w', (do c.openTables; c.answers calls : Action _).run w =
        (.ok (Register.answers [] calls), w')) ∧
      ∀ (r : Register) (d : Dataset),
        (d ∉ r.datasets → r.number? d = none ∧ r.files? d = none ∧
          ∀ files, (r ++ [(d, files)]).number? d = some (1 + r.datasets.eraseDups.length)) ∧
        (d ∈ r.datasets → (∀ later, (r ++ later).number? d = r.number? d) ∧
          ∃ l, r.files? d = some l ∧ r.Lists d l) ∧
        ∀ other files, other ≠ d → (r ++ [(other, files)]).number? d = r.number? d ∧
          (r ++ [(other, files)]).files? d = r.files? d := by
  obtain ⟨w₁, hopen, hserves, -⟩ := h.run_openTables
  have hkeeps : db.openCatalog.Keeps FilesTables.empty := hempty ▸ Database.keeps_openCatalog hfree
  obtain ⟨w₂, hrun⟩ := hserves.answers_of_keeps (r := []) hkeeps calls
  refine ⟨⟨w₂, (Work.run_bind_ok hopen _).trans hrun⟩, fun r d => ⟨?_, ?_, ?_⟩⟩
  · intro hd
    obtain ⟨hnumber, hfiles⟩ := Register.number?_eq_none hd
    exact ⟨hnumber, hfiles, Register.number?_concat_of_not_mem hd⟩
  · intro hd
    exact ⟨Register.number?_append_of_mem hd, Register.exists_files? hd⟩
  · intro other files hother
    exact ⟨Register.number?_concat_of_ne hother r files,
      Register.files?_concat_of_ne hother r files⟩

/-- A workspace with one empty file in the working directory. -/
def withEmptyFile : Workspace :=
  .ofFiles (.folder [("tmp", .folder [("", .folder [("files.db", .file (.text ""))])])])

/-- The connection to that file. -/
def toEmptyFile : Connection :=
  ⟨.file (FileTree.workingPlace ++ ["files.db"]), (Address.ofPath "files.db").access⟩

theorem toEmptyFile_serves : toEmptyFile.Serves withEmptyFile Database.empty where
  mayChange := by decide
  database := by decide
  free := by
    intro place hplace
    cases hplace
    -- two folders lead to the names beside the file
    have hway : ∀ name, withEmptyFile.files.resolve FileTree.linkLimit [] ["tmp", "", name] =
        withEmptyFile.files.resolve FileTree.linkLimit ["tmp", ""] [name] := by
      intro name
      rw [FileTree.resolve_name (by decide) (by decide) (by decide)]
      exact FileTree.resolve_name (by decide) (by decide) (by decide) _ _ _ _
    constructor
    · refine (hway _).trans ?_
      exact FileTree.resolve_name (by decide) (by decide) (by decide) _ _ _ _
    · refine (hway _).trans ?_
      exact FileTree.resolve_name (by decide) (by decide) (by decide) _ _ _ _

/-- Two datasets share an experiment and a tier, and one of them is registered twice. -/
def overlappingCalls : List TablesCall :=
  [.datasetId ⟨"e", "p", "t"⟩, .insertDataset ⟨"e", "p", "t"⟩ ["b", "a"],
    .insertDataset ⟨"e", "q", "t"⟩ ["a"], .insertDataset ⟨"e", "p", "t"⟩ ["c", "b", "c"],
    .datasetId ⟨"e", "q", "t"⟩, .findFiles ⟨"e", "p", "t"⟩, .count (.names .processing),
    .count .files]

theorem answers_of_openTables_file :
    toEmptyFile.Serves withEmptyFile Database.empty ∧ Database.empty.tables = .empty ∧
      (∀ table, Database.empty.covered table = false) ∧
      ∃ w', (do toEmptyFile.openTables; toEmptyFile.answers overlappingCalls : Action _).run
          withEmptyFile =
        (.ok [.number none, .number (some 1), .number (some 2), .number (some 1), .number (some 2),
          .files (some ["b", "a", "c"]), .count 2, .count 4], w') := by
  have hfree : ∀ table, Database.empty.covered table = false := fun _ => rfl
  refine ⟨toEmptyFile_serves, rfl, hfree, ?_⟩
  obtain ⟨w', hrun⟩ := (answers_of_openTables toEmptyFile_serves rfl hfree overlappingCalls).1
  have hanswers : Register.answers [] overlappingCalls =
      [.number none, .number (some 1), .number (some 2), .number (some 1), .number (some 2),
        .files (some ["b", "a", "c"]), .count 2, .count 4] := by decide
  rw [hanswers] at hrun
  exact ⟨w', hrun⟩

end Connection

end MetadataCatalog
