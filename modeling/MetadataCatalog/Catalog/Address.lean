import MetadataCatalog.Text.Hex
import MetadataCatalog.Text.Pieces

/-!
# Addresses of databases

A database is opened by an address. Most addresses are paths. One that begins with `file:` is a path
with options: an empty or local host may stand in front of it, a question mark begins the options
and a number sign ends them. Options are pairs `name=value` with ampersands between them. In the
path, the names and the values an escape `%HH` stands for an octet, and an escaped zero ends what it
stands in.

Some options say how the database is opened; they can only narrow what an opening may do. Other
names mean nothing.
-/

namespace MetadataCatalog

/-! ## §1 Escapes -/

namespace Escape

/-- The octets of a text with its escapes replaced. A percent sign that begins no escape stands for
itself. -/
def octets : List Char → List UInt8
  | '%' :: a :: b :: cs =>
    match Text.hexValue? a, Text.hexValue? b with
    | some high, some low => (16 * high + low).toUInt8 :: octets cs
    | _, _ => String.utf8EncodeChar '%' ++ octets (a :: b :: cs)
  | c :: cs => String.utf8EncodeChar c ++ octets cs
  | [] => []

/-- The character that begins a sequence of octets, with the number of its octets. -/
def character? (octets : List UInt8) : Option (Char × Nat) :=
  [1, 2, 3, 4].findSome? fun n =>
    match (String.fromUTF8? ⟨(octets.take n).toArray⟩).map String.toList with
    | some [c] => some (c, n)
    | _ => none

/-- The characters that octets encode. An octet that belongs to no character is shown as the
replacement character; `fuel` bounds the number of characters. -/
def characters : Nat → List UInt8 → List Char
  | 0, _ | _, [] => []
  | fuel + 1, octets =>
    match character? octets with
    | some (c, n) => c :: characters fuel (octets.drop n)
    | none => Char.ofNat 0xFFFD :: characters fuel (octets.drop 1)

/-- The text that is written with escapes, up to an escaped zero. -/
def text (written : List Char) : String :=
  let octets := (octets written).takeWhile (· ≠ 0)
  String.ofList (characters octets.length octets)

end Escape

/-! ## §2 Addresses -/

/-- What an opening may do: read a file, change a file, also make one, or use no file. -/
inductive OpenMode where
  | read
  | change
  | make
  | memory
  deriving DecidableEq, Repr

/-- How a database is opened: by which path and in which mode, whether later openings under the same
name share it, by which access method, whether its file is taken never to change, whether it is used
without locks, and which file is the model for the rights of a new file. -/
structure Address where
  path : String
  mode : OpenMode
  shared : Bool
  method : String
  fixed : Bool
  lockless : Bool
  model : Option String
  deriving DecidableEq, Repr

/-- What an opened database may be used for: whether it may be changed, whether its file is taken to
be all there is of it, so that side files do not matter, and whether its file is locked by the means
of the system. -/
structure Access where
  mayChange : Bool
  alone : Bool
  locked : Bool
  deriving DecidableEq, Repr

namespace OpenMode

/-- The modes by name. -/
def names : List (String × OpenMode) :=
  [("ro", .read), ("rw", .change), ("rwc", .make), ("memory", .memory)]

/-- How much a mode asks for; to use no file is always granted. -/
def demand : OpenMode → Nat
  | .memory => 0
  | .read => 1
  | .change => 2
  | .make => 3

/-- How much can be asked for after a mode; once there is no file, anything. -/
def grant : OpenMode → Nat
  | .memory => 3
  | mode => mode.demand

/-- The mode of the given name, if it may come after another one. -/
def next? (mode : OpenMode) (name : String) : Option OpenMode :=
  (names.lookup name).filter fun next => next.demand ≤ mode.grant

end OpenMode

namespace Address

/-- The beginning of addresses with options. -/
def scheme : String := "file:"

/-- The path that stands for a spare database, beside the empty one. -/
def sparePath : String := ":memory:"

/-- The access methods that lock files by the means of the system. -/
def lockingMethods : List String := ["unix", "unix-excl"]

/-- The other access methods for files. -/
def plainMethods : List String := ["unix-none", "unix-dotfile"]

/-- The access method that keeps databases in memory. -/
def memoryMethod : String := "memdb"

/-- The address that is a path. -/
def ofPath (path : String) : Address :=
  { path, mode := .make, shared := false, method := "unix", fixed := false, lockless := false
    model := none }

/-! ## §3 Options -/

/-- The digits of a base that a text begins with. -/
def leadingDigits (base : Nat) : List Char → List Nat
  | [] => []
  | c :: cs =>
    match (Text.hexValue? c).filter (· < base) with
    | some digit => digit :: leadingDigits base cs
    | none => []

/-- The value of digits of a base. -/
def digitsValue (base : Nat) (digits : List Nat) : Nat :=
  digits.foldl (fun n digit => base * n + digit) 0

/-- The value of a number that a text begins with, in decimal or behind `0x` in hexadecimal. -/
def leadingNumber (cs : List Char) : Nat :=
  match cs with
  | '0' :: x :: rest =>
    if x.toLower = 'x' ∧ leadingDigits 16 rest ≠ [] then digitsValue 16 (leadingDigits 16 rest)
    else digitsValue 10 (leadingDigits 10 cs)
  | _ => digitsValue 10 (leadingDigits 10 cs)

/-- Whether the value of an option means yes: a word for it, or a number of at most 31 bits whose
last eight bits are not all zero. -/
def isYes (value : String) : Bool :=
  if (value.toList.head?.map Char.isDigit).getD false then
    let n := leadingNumber value.toList
    n < Nat.pow 2 31 && n % 256 ≠ 0
  else ["on", "yes", "true"].any (Text.sameIgnoringCase value)

/-- The names and values of options; options without a name do not count. -/
def options (written : List Char) : List (String × String) :=
  ((Text.pieces '&' written).map fun option =>
      (Escape.text (option.takeWhile (· ≠ '=')),
        Escape.text ((option.dropWhile (· ≠ '=')).drop 1))).filter
    fun (name, _) => name ≠ ""

/-- The address after one more option. -/
def withOption? (a : Address) : String × String → Option Address
  | ("vfs", method) => some { a with method }
  | ("cache", "shared") => some { a with shared := true }
  | ("cache", "private") => some { a with shared := false }
  | ("cache", _) => none
  | ("mode", name) => (a.mode.next? name).map fun mode => { a with mode }
  | _ => some a

/-- The address after options, if its access method is known. Of two values the last one counts,
for what is said about the file the first one. -/
def withOptions? (a : Address) (options : List (String × String)) : Option Address :=
  let isSet (name : String) : Bool := ((options.lookup name).map isYes).getD false
  (options.foldlM withOption? a).bind fun a =>
    if (memoryMethod :: lockingMethods ++ plainMethods).contains a.method then
      some { a with fixed := isSet "immutable", lockless := isSet "nolock"
                    model := options.lookup "modeof" }
    else none

/-! ## §4 Reading -/

/-- What follows the host, if the host is empty or the local one. -/
def behindHost? : List Char → Option (List Char)
  | '/' :: '/' :: rest =>
    if ["", "localhost"].contains (String.ofList (rest.takeWhile (· ≠ '/'))) then
      some (rest.dropWhile (· ≠ '/'))
    else none
  | cs => some cs

/-- The address that a text is. -/
def ofText? (text : String) : Option Address :=
  if text.toList.contains (Char.ofNat 0) then none
  else match Text.stripStart? scheme text with
    | none => some (ofPath text)
    | some rest =>
      (behindHost? rest.toList).bind fun cs =>
        let cs := cs.takeWhile (· ≠ '#')
        (ofPath (Escape.text (cs.takeWhile (· ≠ '?')))).withOptions?
          (options ((cs.dropWhile (· ≠ '?')).drop 1))

/-- Whether no file is asked for, not even one in memory. -/
def isFileless (a : Address) : Bool :=
  a.path = "" || a.path = sparePath || a.mode = .memory

/-- Whether a database is kept outside the tree of files. -/
def isSpare (a : Address) : Bool :=
  a.isFileless || a.method = memoryMethod

/-- Whether openings under the same name share a database that is kept outside the tree. Files in
memory are shared when their name begins with a slash. -/
def isSharedSpare (a : Address) : Bool :=
  a.path ≠ "" &&
    (a.shared ||
      (!a.isFileless && a.path.toList.head? = some '/' && 1 < a.path.toList.length))

/-- What a database opened at an address may be used for. A file that is taken never to change is
not changed. -/
def access (a : Address) : Access where
  mayChange := a.mode ≠ .read && (a.isFileless || !a.fixed)
  alone := a.isSpare || a.fixed
  locked := !a.lockless && lockingMethods.contains a.method

end Address

end MetadataCatalog
