import MetadataCatalog.Catalog.Address
import MetadataCatalog.Storage.Content

/-!
# Side files of databases

Beside the file `NAME` of a database stand, while it is changed, the journal `NAME-journal` or the
log `NAME-wal` with its index `NAME-shm`. Whoever asks a database looks for a journal and a log,
takes what is there for the rest of an earlier change, and tidies it up. Whatever cannot be tidied
up makes the database unusable, and a change needs room for the journal.

A database that has not been written, which is a file of one octet at most, has no rest: then a
journal or a log is only removed.
-/

namespace MetadataCatalog

/-! ## §1 Places -/

/-- The kinds of side files. -/
inductive SideFile where
  | journal
  | log
  | index
  deriving DecidableEq, Repr

namespace SideFile

/-- What the name of a side file adds to the name of the database. -/
def ending : SideFile → String
  | .journal => "-journal"
  | .log => "-wal"
  | .index => "-shm"

/-- The name of a side file of the database of the given name. -/
def name (side : SideFile) (database : String) : String :=
  database ++ side.ending

/-- The place of a side file of the database at a place. -/
def place (side : SideFile) (database : List String) : List String :=
  database.dropLast ++ [side.name (database.getLast?.getD "")]

end SideFile

namespace FileTree

/-- Whether a side file counts as present: a file with content or a folder, perhaps behind a
link. -/
def isPresent (tree : Files) (side : List String) : Bool :=
  match tree.resolve linkLimit [] side with
  | .taken place =>
    match tree.at? place with
    | some (.file content) => content.beginning ≠ []
    | some _ => true
    | none => false
  | _ => false

/-- Whether a side file can be made or overwritten at a place. -/
def hasRoom (tree : Files) (side : List String) : Bool :=
  match tree.at? side with
  | none => true
  | some node => node.isFile

/-- Whether the file at a place is too short to hold a database. -/
def isShortAt? (tree : Files) (place : List String) : Option Bool :=
  ((tree.at? place).bind content?).map Content.isShort

theorem isShortAt?_of_file {tree : Files} {place : List String} {content : Content}
    (h : tree.at? place = some (.file content)) : tree.isShortAt? place = some content.isShort := by
  rw [isShortAt?, h]
  rfl

/-! ## §2 Asking -/

/-- The tree after the journal of the database at a place has been looked at, if the database can be
used. A journal is removed if the database may be changed, beside a short file also if that is not
locked; one that begins with zero is finished and stays, as does a folder beside a short file. -/
def settleJournal? (place : List String) (access : Access) (tree : Files) : Option Files := do
  let side := SideFile.journal.place place
  let short ← tree.isShortAt? place
  if !tree.isPresent side then some tree
  else match tree.at? side, short with
    | some (.folder _), true => some tree
    | _, true => some (if access.mayChange || !access.locked then tree.erase side else tree)
    | some (.file content), false =>
      if content.beginning.head? = some 0 then some tree
      else if access.mayChange then some (tree.erase side)
      else none
    | _, false => none

/-- The index of a log from which nothing was read, as far as it matters. -/
def indexContent : Content := .octets [0x18, 0xE2]

/-- The tree after the log of the database at a place has been looked at, if the database can be
used. A log is removed, beside a longer file together with its index and only if the database may be
changed; else it gets an index. To read a log beside a longer file takes locks. -/
def settleLog? (place : List String) (access : Access) (tree : Files) : Option Files := do
  let side := SideFile.log.place place
  let index := SideFile.index.place place
  let short ← tree.isShortAt? place
  if !tree.isPresent side then some tree
  else match tree.at? side, short with
    | some (.folder _), true => none
    | _, true => some (tree.erase side)
    | some (.file _), false =>
      if !access.locked || !tree.hasRoom index then none
      else if access.mayChange then some ((tree.erase side).erase index)
      else some (tree.put index (.file indexContent))
    | _, false => none

/-! ## §3 Changing -/

/-- The tree with another database in the file at a place, if there is room for the journal; the
journal is gone afterwards. -/
def writeDatabase? (place : List String) (db : Database) (tree : Files) : Option Files :=
  let side := SideFile.journal.place place
  if tree.hasRoom side && Path.isUsable (SideFile.journal.name (place.getLast?.getD "")) then
    some ((tree.put place (.file (.database db))).erase side)
  else none

end FileTree

end MetadataCatalog
