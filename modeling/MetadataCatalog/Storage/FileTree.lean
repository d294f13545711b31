import MetadataCatalog.Storage.Path

/-!
# File trees

A tree of folders, files and symbolic links. A path is resolved step by step, from the top of the
tree if it begins with a slash and else from the working directory. A link on the way is replaced by
its target, at most forty times.

The working directory stands in the folder `tmp` below the top under a name that is not known, so
only paths from the working directory lead into it. Nothing else is known to be there.
-/

namespace MetadataCatalog

/-- A file with its content, a link with its target, or a folder with its entries. -/
inductive FileTree (α : Type) where
  | file (content : α)
  | link (target : String)
  | folder (entries : List (String × FileTree α))
  deriving Inhabited

namespace FileTree

variable {α : Type}

/-! ## §1 Places in a tree -/

/-- The entry of a folder with the given name. -/
def child? (name : String) : FileTree α → Option (FileTree α)
  | .folder entries => (entries.find? (·.1 = name)).map Prod.snd
  | _ => none

/-- What stands at a place, which is given by names without dots and links. -/
def at? : List String → FileTree α → Option (FileTree α)
  | [], tree => some tree
  | name :: rest, tree => (tree.child? name).bind (at? rest)

/-- Entries with `node` under a name, at the place of the name or at the end. -/
def putEntry (name : String) (node : FileTree α) :
    List (String × FileTree α) → List (String × FileTree α)
  | [] => [(name, node)]
  | (other, old) :: rest =>
    if other = name then (name, node) :: rest else (other, old) :: putEntry name node rest

/-- The tree with `node` at a place whose folder is there. -/
def put : FileTree α → List String → FileTree α → FileTree α
  | _, [], node => node
  | .folder entries, name :: rest, node =>
    let old := (child? name (.folder entries)).getD (.folder [])
    .folder (putEntry name (put old rest node) entries)
  | tree, _ :: _, _ => tree

/-- The place of the working directory. No path contains the empty name. -/
def workingPlace : List String := ["tmp", ""]

/-- The tree with nothing but an empty working directory. -/
def bare : FileTree α := .folder [("tmp", .folder [("", .folder [])])]

/-- Where a path begins. -/
def startOf (path : String) : List String :=
  if Path.isAbsolute path then [] else workingPlace

/-- Whether a node is a folder. -/
def isFolder : FileTree α → Bool
  | .folder _ => true
  | _ => false

/-- Whether a node is a file. -/
def isFile : FileTree α → Bool
  | .file _ => true
  | _ => false

/-- The content of a file. -/
def content? : FileTree α → Option α
  | .file content => some content
  | _ => none

/-! ## §2 Resolving paths -/

/-- Where a path leads: to a file or folder, to a free name in a folder, or nowhere. -/
inductive Place where
  | taken (place : List String)
  | free (above : List String) (name : String)
  | nowhere
  deriving DecidableEq, Repr

/-- How many links are followed on the way. -/
def linkLimit : Nat := 40

/-- Where the steps lead from a place on, when so many more links may be followed. -/
def resolve (tree : FileTree α) (links : Nat) (place : List String) : List String → Place
  | [] => .taken place
  | step :: rest =>
    if step = "." then resolve tree links place rest
    else if step = ".." then resolve tree links place.dropLast rest
    else if !Path.isUsable step then .nowhere
    else match tree.at? (place ++ [step]) with
      | none => if rest = [] then .free place step else .nowhere
      | some (.folder _) => resolve tree links (place ++ [step]) rest
      | some (.file _) => if rest = [] then .taken (place ++ [step]) else .nowhere
      | some (.link target) =>
        match links with
        | 0 => .nowhere
        | links + 1 =>
          match Path.steps? target with
          | none => .nowhere
          | some steps =>
            resolve tree links (if Path.isAbsolute target then [] else place) (steps ++ rest)
termination_by steps => (links, steps.length)

/-- Where a path leads. -/
def placeOf (tree : FileTree α) (path : String) : Place :=
  match Path.steps? path with
  | none => .nowhere
  | some steps => tree.resolve linkLimit (startOf path) steps

/-- The file or folder that a path leads to. -/
def node? (tree : FileTree α) (path : String) : Option (FileTree α) :=
  match tree.placeOf path with
  | .taken place => tree.at? place
  | _ => none

/-- Whether a path leads to a file or folder. -/
def hasPath (tree : FileTree α) (path : String) : Bool :=
  (tree.node? path).isSome

/-- Whether a path leads to a folder. -/
def hasFolder (tree : FileTree α) (path : String) : Bool :=
  ((tree.node? path).map isFolder).getD false

/-- The content of the file that a path leads to. -/
def read? (tree : FileTree α) (path : String) : Option α :=
  (tree.node? path).bind content?

/-- The names in the folder that a path leads to. -/
def names? (tree : FileTree α) (path : String) : Option (List String) :=
  match tree.node? path with
  | some (.folder entries) => some (entries.map Prod.fst)
  | _ => none

/-! ## §3 Changing a tree -/

/-- The tree in which the file that a path leads to has the given content; a file is made where the
name is free. -/
def write? (tree : FileTree α) (path : String) (content : α) : Option (FileTree α) :=
  match tree.placeOf path with
  | .taken place =>
    match tree.at? place with
    | some (.file _) => some (tree.put place (.file content))
    | _ => none
  | .free above name => some (tree.put (above ++ [name]) (.file content))
  | .nowhere => none

/-- The tree without what stands at a place. -/
def erase (tree : FileTree α) (place : List String) : FileTree α :=
  match tree.at? place.dropLast, place.getLast? with
  | some (.folder entries), some name =>
    tree.put place.dropLast (.folder (entries.filter (·.1 ≠ name)))
  | _, _ => tree

/-- The tree with a folder at the end of the steps from a place: one that is there already, or a new
one under a free name. -/
def makeFolder? (tree : FileTree α) (start steps : List String) : Option (FileTree α) :=
  match tree.resolve linkLimit start steps, tree.resolve linkLimit start steps.dropLast with
  | .taken place, _ => if ((tree.at? place).map isFolder).getD false then some tree else none
  | .free above name, .taken way =>
    if above = way ∧ steps.getLast? = some name then
      some (tree.put (above ++ [name]) (.folder []))
    else none
  | _, _ => none

/-- Makes folders one after the other, as far as that is possible, and says whether it was. -/
def makeEach (tree : FileTree α) (start : List String) : List (List String) → FileTree α × Bool
  | [] => (tree, true)
  | steps :: rest =>
    match tree.makeFolder? start steps with
    | some tree => makeEach tree start rest
    | none => (tree, false)

/-- Makes all the folders on a path that are not there, and says whether that was possible. -/
def makeFolders (tree : FileTree α) (path : String) : FileTree α × Bool :=
  match Path.steps? path with
  | none => (tree, false)
  | some steps => tree.makeEach (startOf path) ((List.range steps.length).map fun i => steps.take (i + 1))

/-! ## §4 Listing files -/

mutual

/-- What is below a folder, links unopened: the names that lead to each file, link and folder, in
the order of the names. -/
def descendants : FileTree α → List (List String × FileTree α)
  | .folder entries =>
    ((descendantsOf entries).mergeSort fun a b => decide (a.1 ≤ b.1)).flatMap Prod.snd
  | _ => []

/-- Each entry by its name, with the entry and what is below it. -/
def descendantsOf : List (String × FileTree α) → List (String × List (List String × FileTree α))
  | [] => []
  | (name, node) :: rest =>
    (name, ([name], node) :: (descendants node).map fun (names, n) => (name :: names, n)) ::
      descendantsOf rest

end

/-- What is below the folder that a path leads to, by paths that begin with it. -/
def below? (tree : FileTree α) (path : String) : Option (List (String × FileTree α)) :=
  match tree.node? path with
  | some (.folder entries) =>
    some ((descendants (.folder entries)).map fun (names, node) => (Path.below path names, node))
  | _ => none

end FileTree

end MetadataCatalog
