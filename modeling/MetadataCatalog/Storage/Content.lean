import MetadataCatalog.Catalog.Database
import MetadataCatalog.Sheet.Csv
import MetadataCatalog.Sheet.Grid
import MetadataCatalog.Storage.FileTree

/-!
# Contents of files

What a file holds matters only as far as it is read: as a text, as octets that are no text, as an
archive of named texts, as a spreadsheet, or as a database. A new database is an empty text until
something is made in it; a file of one octet is an empty database, too.
-/

namespace MetadataCatalog

/-- What a file holds. -/
inductive Content where
  | text (s : String)
  | octets (bytes : List UInt8)
  | archive (entries : List (String × String))
  | spreadsheet (sheets : List (String × Grid))
  | database (db : Database)

/-- A tree of files. -/
abbrev Files := FileTree Content

namespace Content

/-- The content that octets are: a text if they encode one. -/
def ofOctets (bytes : List UInt8) : Content :=
  match Csv.decode? bytes with
  | some s => .text s
  | none => .octets bytes

/-- The text of a file that holds one. -/
def text? : Content → Option String
  | .text s => some s
  | _ => none

/-- The first octets of a file, two if there are as many. -/
def beginning : Content → List UInt8
  | .text s => ((s.toList.take 2).flatMap String.utf8EncodeChar).take 2
  | .octets bytes => bytes.take 2
  | .archive _ | .spreadsheet _ => "PK".toList.flatMap String.utf8EncodeChar
  | .database _ => "SQ".toList.flatMap String.utf8EncodeChar

/-- Whether a file is too short to hold a database: a single octet counts as none. -/
def isShort (content : Content) : Bool :=
  content.beginning.length ≤ 1

/-- The database of a file that holds one; a file that is too short is an empty database. -/
def database? (content : Content) : Option Database :=
  match content with
  | .database db => some db
  | _ => if content.isShort then some .empty else none

/-- The records of a file that holds a sheet of comma-separated fields. -/
def records? : Content → Option (List (List String))
  | .text s => some (Csv.ofText s)
  | .octets bytes => Csv.ofOctets? bytes
  | _ => none

end Content

/-- The text of the file that a path leads to. -/
def FileTree.readText (tree : Files) (path : String) : Except Fault String :=
  match (tree.read? path).bind Content.text? with
  | some s => .ok s
  | none => .error (.inaccessible path)

end MetadataCatalog
