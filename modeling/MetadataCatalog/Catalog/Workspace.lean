import MetadataCatalog.Catalog.Address
import MetadataCatalog.Catalog.SideFiles

/-!
# Workspaces

A workspace is a tree of files together with the databases that are open without a file: spare
databases, which are new at each opening and gone when the work is done, unless openings share them
by a name. An `Action` works in a workspace and can fail; what it has done before it failed remains.

The path of a database is resolved more freely than other paths: names that are not there are passed
over when the path leads back from them, and a slash at the end does not count. But the full name of
the file, from the top of the machine, must not be long.
-/

namespace MetadataCatalog

/-- Where a database is kept: in the file at a place in the tree, or among the spare ones. -/
inductive Seat where
  | file (place : List String)
  | spare (index : Nat)
  deriving DecidableEq, Repr

/-- An open database: where it is kept, and what it may be used for. -/
structure Connection where
  seat : Seat
  access : Access
  deriving DecidableEq, Repr

/-- A name under which later openings share a connection. -/
inductive SharedName where
  | file (place : List String)
  | spare (name : String)
  deriving DecidableEq, Repr

/-- A tree of files, the spare databases, and the shared connections. -/
structure Workspace where
  files : Files
  spares : List Database
  shared : List (SharedName × Connection)

/-- The workspace with nothing but files. -/
def Workspace.ofFiles (files : Files) : Workspace :=
  ⟨files, [], []⟩

/-- What is done in a workspace. -/
abbrev Action := Work Workspace

/-- The action that changes nothing and has the given outcome. -/
def Action.ofExcept {α : Type} (outcome : Except Fault α) : Action α :=
  Work.ofExcept outcome

/-- A question about the files of a workspace. -/
def Action.askFiles {α : Type} (ask : Files → Except Fault α) : Action α := do
  Action.ofExcept (ask (← get).files)

/-! ## §1 Places of databases -/

namespace FileTree

variable {α : Type}

/-- How many links are followed on the way to a database. -/
def databaseLinkLimit : Nat := 201

/-- The length of the name of the working directory, which is not known but for its length. -/
def workingNameLength : Nat := 10

/-- The longest full name on the way to a database, in bytes. -/
def wayLimit : Nat := 511

/-- The longest full name of a database, in bytes; that of the journal needs eight more. -/
def databaseLimit : Nat := 504

/-- The length of the full name of what stands at a place, in bytes. -/
def fullLength (place : List String) : Nat :=
  place.foldr (fun name n => (1 + if name = "" then workingNameLength else name.utf8ByteSize) + n) 0

/-- Whether a name can be looked up at a place. Where nothing is, nothing is found. -/
def canLookUp (tree : FileTree α) (place : List String) (name : String) : Bool :=
  match tree.at? place with
  | some (.folder _) => Path.isUsable name
  | some _ => false
  | none => true

/-- The place that steps lead to from a place on, through names that need not be there. -/
def canonical? (tree : FileTree α) (links : Nat) (place : List String) :
    List String → Option (List String)
  | [] => some place
  | step :: rest =>
    if step = "." then canonical? tree links place rest
    else if step = ".." then canonical? tree links place.dropLast rest
    else if wayLimit < fullLength (place ++ [step]) then none
    else if !tree.canLookUp place step then none
    else match tree.at? (place ++ [step]) with
      | some (.link target) =>
        match links with
        | 0 => none
        | links + 1 =>
          match Path.steps? target with
          | none => none
          | some steps =>
            canonical? tree links (if Path.isAbsolute target then [] else place) (steps ++ rest)
      | _ => canonical? tree links (place ++ [step]) rest
termination_by steps => (links, steps.length)

/-- The place of the database that a path leads to. -/
def databasePlace? (tree : FileTree α) (path : String) : Option (List String) :=
  (tree.canonical? databaseLinkLimit (startOf path) (Path.steps path)).filter fun place =>
    fullLength place ≤ databaseLimit

/-- The tree with a file at a place: the one that is there, or a new one in a folder if one may be
made. -/
def withFileAt? (tree : FileTree α) (new : Option α) (place : List String) :
    Option (FileTree α) :=
  match tree.at? place, new with
  | some (.file _), _ => some tree
  | none, some new =>
    if ((tree.at? place.dropLast).map isFolder).getD false then some (tree.put place (.file new))
    else none
  | _, _ => none

end FileTree

/-! ## §2 Opening databases -/

namespace Connection

/-- The connection that is shared under a name; a new one is shared from now on. -/
def share (name : SharedName) (new : Connection) : Action Connection := do
  let w ← get
  match w.shared.lookup name with
  | some c => return c
  | none =>
    set { w with shared := w.shared ++ [(name, new)] }
    return new

/-- Opens a spare database. -/
def openSpare (a : Address) : Action Connection := do
  let w ← get
  let new : Connection := ⟨.spare w.spares.length, a.access⟩
  set { w with spares := w.spares ++ [Database.empty] }
  if a.isSharedSpare then share (.spare a.path) new else return new

/-- Opens the database in the file that an address leads to; a new file is empty. The file that is
the model for a new one must be there. -/
def openFile (a : Address) : Action Connection := do
  let w ← get
  match w.files.databasePlace? a.path with
  | none => throw .storeUnavailable
  | some place =>
    let new := if a.mode = .make then some (.text "") else none
    match w.files.withFileAt? new place with
    | none => throw .storeUnavailable
    | some files =>
      if !(a.model.map w.files.hasPath).getD true then throw .storeUnavailable
      set { w with files }
      let new : Connection := ⟨.file place, a.access⟩
      if a.shared then share (.file place) new else return new

/-- Opens the database at an address. -/
def ofAddress (text : String) : Action Connection :=
  match Address.ofText? text with
  | none => throw .storeUnavailable
  | some a => if a.isSpare then openSpare a else openFile a

/-! ## §3 Using databases -/

/-- The database behind a connection. -/
def database? (c : Connection) (w : Workspace) : Option Database :=
  match c.seat with
  | .file place => ((w.files.at? place).bind FileTree.content?).bind Content.database?
  | .spare index => w.spares[index]?

/-- Changes the files, unless the database turns out to be unusable. -/
def changeFiles (change : Files → Option Files) : Action Unit := do
  let w ← get
  match change w.files with
  | some files => set { w with files }
  | none => throw .database

/-- Looks at the side files of a database, first at the journal and then at the log. -/
def settle (c : Connection) : Action Unit := do
  match c.seat, c.access.alone with
  | .file place, false =>
    changeFiles (FileTree.settleJournal? place c.access)
    changeFiles (FileTree.settleLog? place c.access)
  | _, _ => return ()

/-- The database behind a connection, when its side files have been looked at. -/
def read (c : Connection) : Action Database := do
  c.settle
  match c.database? (← get) with
  | some db => return db
  | none => throw .database

/-- Puts another database behind a connection, if it may be changed. -/
def write (c : Connection) (db : Database) : Action Unit := do
  if !c.access.mayChange then throw .database
  match c.seat with
  | .spare index => modify fun w => { w with spares := w.spares.set index db }
  | .file place => changeFiles (FileTree.writeDatabase? place db)

/-- Asks a database. -/
def query {α : Type} (c : Connection) (ask : Database → Except Fault α) : Action α := do
  Action.ofExcept (ask (← c.read))

/-- Changes a database, also when the outcome of the change is a fault. A change that alters nothing
needs no right to change, unless it is one that always writes. -/
def update {α : Type} (c : Connection) (writes : Bool)
    (change : Database → Except Fault α × Database) : Action α := do
  let old ← c.read
  let (outcome, db) := change old
  if writes || db ≠ old then c.write db
  Action.ofExcept outcome

/-- Makes something in a database, unless that fails or it is there. -/
def make (c : Connection) (make : Database → Except Fault Database) : Action Unit := do
  let old ← c.read
  let db ← Action.ofExcept (make old)
  if db ≠ old then c.write db

end Connection

end MetadataCatalog
