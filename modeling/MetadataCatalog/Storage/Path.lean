import MetadataCatalog.Text.Pieces

/-!
# Paths

A path is a text of names with slashes between them, read from the working directory or, with a
slash in front, from the top. Repeated slashes count once, a single dot means the folder itself, two
dots the folder above, and a slash at the end asks for a folder. Names and paths of more bytes than
a file system accepts lead nowhere.
-/

namespace MetadataCatalog.Path

/-! ## §1 Steps -/

/-- The longest name of a file, in bytes. -/
def nameLimit : Nat := 255

/-- Whether a file can have the given name. -/
def isUsable (name : String) : Bool :=
  name.utf8ByteSize ≤ nameLimit

/-- The longest path, in bytes. -/
def pathLimit : Nat := 4095

/-- Whether a path begins at the top. -/
def isAbsolute (path : String) : Bool :=
  path.toList.head? = some '/'

/-- The names of a path one after the other; a slash at the end counts as a dot. -/
def steps (path : String) : List String :=
  let names := Text.cut '/' path
  let proper := names.filter (· ≠ "")
  if names.getLast? = some "" then proper ++ ["."] else proper

/-- The steps of a path, if it can lead anywhere. -/
def steps? (path : String) : Option (List String) :=
  if path = "" ∨ path.toList.contains (Char.ofNat 0) ∨ pathLimit < path.utf8ByteSize then none
  else some (steps path)

/-! ## §2 Names -/

/-- The last name of a path, unless that leads upwards. -/
def name? (path : String) : Option String :=
  match ((Text.cut '/' path).filter fun name => name ≠ "" ∧ name ≠ ".").getLast? with
  | some ".." => none
  | name => name

/-- A name cut at its last dot, unless that dot is its first character. -/
def splitName (name : String) : String × Option String :=
  match (Text.cut '.' name).reverse with
  | [] | [_] | [_, ""] => (name, none)
  | ending :: before => (Text.join "." before.reverse, some ending)

/-- What follows the last dot of the last name. -/
def extension? (path : String) : Option String :=
  (name? path).bind fun name => (splitName name).2

/-- The last name without its extension. -/
def stem? (path : String) : Option String :=
  (name? path).map fun name => (splitName name).1

/-- Whether the extension of a path is the given one, in any case. -/
def hasExtension (path extension : String) : Bool :=
  match extension? path with
  | some ending => Text.sameIgnoringCase ending extension
  | none => false

/-! ## §3 Putting paths together -/

/-- Names without the empty ones and the dots at their end; a dot in front stays. -/
def trimmed (names : List String) : List String :=
  let trim (names : List String) :=
    (names.reverse.dropWhile fun name => name = "" ∨ name = ".").reverse
  match names with
  | "." :: rest => "." :: trim rest
  | names => trim names

/-- The path of the folder that the last name of a path stands in; empty for a single name. -/
def parent (path : String) : String :=
  Text.join "/" (trimmed (trimmed (Text.cut '/' path)).dropLast)

/-- The path of a name in a folder. -/
def join (folder name : String) : String :=
  if folder = "" then name
  else if folder.toList.getLast? = some '/' then folder ++ name
  else folder ++ "/" ++ name

/-- The path of what names, one after the other, lead to from a folder. -/
def below (folder : String) (names : List String) : String := names.foldl join folder

end MetadataCatalog.Path
