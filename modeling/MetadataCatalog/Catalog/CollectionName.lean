import MetadataCatalog.Fault

/-!
# Names of collections

A collection is named by letters, digits and underscores of ASCII, without regard to case. The names
of the columns of a collection are refused. Among the accepted names are some that a database cannot
use, because they mean something else in its language: `Service` says how far each name goes.
-/

namespace MetadataCatalog.CollectionName

/-! ## §1 Accepted names -/

/-- The names of the columns that every collection has. -/
def columns : List String := ["meta", "dataset", "did", "rank"]

/-- Whether a character can stand in the name of a collection. -/
def isNameChar (c : Char) : Bool :=
  c.isAlphanum || c == '_'

/-- Accepts a name or refuses it. -/
def check (name : String) : Except Fault Unit :=
  if name = "" ∨ !name.toList.all isNameChar then .error (.refused (.collectionForm name))
  else if columns.any (Text.sameIgnoringCase · name) then
    .error (.refused (.collectionClash name))
  else .ok ()

/-! ## §2 Usable names -/

/-- How far a database goes along with a name: not at all, up to a search, up to a search among
records, up to a search that finds something, or all the way. -/
inductive Service where
  | none
  | noSearch
  | emptySearch
  | fruitlessSearch
  | full
  deriving DecidableEq, Repr

/-- The words that cannot name a table. -/
def reservedWords : List String :=
  ["add", "all", "alter", "and", "as", "autoincrement", "between", "case", "check", "collate",
   "commit", "constraint", "create", "default", "deferrable", "delete", "distinct", "drop", "else",
   "escape", "except", "exists", "foreign", "from", "group", "having", "if", "in", "index",
   "insert", "intersect", "into", "is", "isnull", "join", "limit", "not", "nothing", "notnull",
   "null", "on", "or", "order", "primary", "references", "returning", "select", "set", "sqlite",
   "table", "then", "to", "transaction", "union", "unique", "update", "using", "values", "when",
   "where"]

/-- The words that can name a table but cannot stand in the condition of a search. -/
def callWords : List String := ["cast", "raise"]

/-- The words that mean a value of their own, not the table, in the condition of a search. -/
def valueWords : List String := ["current_date", "current_time", "current_timestamp"]

/-- The word by which a search names the records that it has found. -/
def numberWord : String := "rowid"

/-- The beginning of the names that a database keeps for itself. -/
def internalStart : String := "sqlite_"

/-- How far a database goes along with an accepted name. -/
def service (name : String) : Service :=
  let word := Text.lowerAscii name
  if (word.toList.head?.map Decimal.isDigit).getD false then .none
  else if (Text.stripStart? internalStart word).isSome then .none
  else if reservedWords.contains word then .none
  else if callWords.contains word then .noSearch
  else if valueWords.contains word then .emptySearch
  else if word = numberWord then .fruitlessSearch
  else .full

@[simp]
theorem service_lowerAscii (name : String) : service (Text.lowerAscii name) = service name := by
  unfold service
  rw [Text.lowerAscii_lowerAscii]

/-- The endings of the names of the tables that hold the contents of a collection. -/
def innerEndings : List String := ["_data", "_idx", "_content", "_docsize", "_config"]

/-- The names of the tables that hold the contents of a collection. -/
def innerTables (name : String) : List String :=
  innerEndings.map (name ++ ·)

end MetadataCatalog.CollectionName
