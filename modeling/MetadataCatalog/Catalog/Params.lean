import MetadataCatalog.Json.Printer
import MetadataCatalog.Json.Reader
import MetadataCatalog.Storage.Content
import MetadataCatalog.Yaml.Node

/-!
# Parameters

A file of parameters says where the documents, the collection and the tables of a catalog are. It is
an object with nine keys, each of which can be missing or null; other keys do not count. Files that
end in `yaml` or `yml` are indented texts, all others JSON, where a list gives the values in the
order of the keys.

A parameter that is blank counts as missing, and blanks around a value do not count.
-/

namespace MetadataCatalog

/-- The keys of the parameters. -/
inductive ParamKey where
  | fname
  | path
  | dburi
  | dbname
  | dbcoll
  | filesdb
  | experiment
  | processing
  | tier
  deriving DecidableEq, Repr

namespace ParamKey

/-- All keys in order. -/
def all : List ParamKey :=
  [.fname, .path, .dburi, .dbname, .dbcoll, .filesdb, .experiment, .processing, .tier]

/-- The written form of a key. -/
def name : ParamKey → String
  | .fname => "fname"
  | .path => "path"
  | .dburi => "dburi"
  | .dbname => "dbname"
  | .dbcoll => "dbcoll"
  | .filesdb => "filesdb"
  | .experiment => "experiment"
  | .processing => "processing"
  | .tier => "tier"

/-- The key with the given written form. -/
def ofName? (name : String) : Option ParamKey :=
  all.find? (·.name = name)

end ParamKey

/-- The parameters as they are given. -/
structure Params where
  given : ParamKey → Option String

namespace Params

/-! ## §1 Values -/

/-- No parameters. -/
def empty : Params := ⟨fun _ => none⟩

/-- The parameters with another value for a key. -/
def set (p : Params) (key : ParamKey) (value : Option String) : Params :=
  ⟨fun other => if other = key then value else p.given other⟩

/-- The parameters that are given, in the order of the keys. -/
def entries (p : Params) : Json.Entries :=
  ParamKey.all.filterMap fun key => (p.given key).map fun value => (key.name, .text value)

/-- The value of a parameter, trimmed; a blank one is missing. -/
def value? (p : Params) (key : ParamKey) : Option String :=
  (p.given key).bind fun s => if Text.isBlankText s then none else some (Text.trim s)

/-- The value of a parameter that must not be missing. -/
def get (p : Params) (key : ParamKey) : Except Fault String :=
  match p.value? key with
  | some value => .ok value
  | none => .error (.refused (.keyMissing key.name))

/-- The value of the parameter of the given name. -/
def getNamed (p : Params) (name : String) : Except Fault String :=
  match ParamKey.ofName? name with
  | some key => p.get key
  | none => .error (.refused (.keyMissing name))

/-- Refuses parameters in which one of the given names is missing, and names the first one. -/
def requireNamed (p : Params) : List String → Except Fault Unit
  | [] => .ok ()
  | name :: rest =>
    match (ParamKey.ofName? name).bind p.value? with
    | some _ => requireNamed p rest
    | none => .error (.refused (.keyRequired name (Json.compact (.object p.entries))))

/-- Refuses parameters in which one of the given keys is missing. -/
def require (p : Params) (keys : List ParamKey) : Except Fault Unit :=
  p.requireNamed (keys.map ParamKey.name)

/-! ## §2 Reading JSON -/

/-- The text or null that a value is. -/
def jsonValue? : Json → Option (Option String)
  | .text s => some (some s)
  | .null => some none
  | _ => none

/-- The parameters with the named values, each known key at most once. -/
def ofNamed? {α : Type} (value? : α → Option (Option String)) (seen : List ParamKey) (p : Params) :
    List (String × α) → Option Params
  | [] => some p
  | (name, a) :: rest =>
    match ParamKey.ofName? name with
    | none => ofNamed? value? seen p rest
    | some key =>
      if key ∈ seen then none
      else (value? a).bind fun value => ofNamed? value? (key :: seen) (p.set key value) rest

/-- The parameters with values in the order of the keys; there may be fewer values than keys. -/
def ofValues? (p : Params) : List ParamKey → List Json → Option Params
  | _, [] => some p
  | [], _ :: _ => none
  | key :: keys, value :: values =>
    (jsonValue? value).bind fun v => ofValues? (p.set key v) keys values

/-- What a file of parameters may hold: under an unknown key, anything that has the form of JSON. -/
def jsonRules : Json.Reader.Rules :=
  ⟨127, false, fun name => (ParamKey.ofName? name).isNone⟩

/-- The parameters in a JSON text. -/
def ofJson? (text : String) : Option Params :=
  match Json.Reader.read? jsonRules text with
  | some (.object entries) => ofNamed? jsonValue? [] .empty entries
  | some (.list values) => ofValues? .empty ParamKey.all values
  | _ => none

/-! ## §3 Reading indented texts -/

/-- The tag that says that a scalar is null. -/
def nullTag : String := "tag:yaml.org,2002:null"

/-- The plain scalars that mean null. -/
def nullWords : List String := ["null", "Null", "NULL", "~"]

/-- The text or null that a scalar is. Only a plain scalar can be null. -/
def scalarValue? : Yaml.Scalar → Option (Option String)
  | ⟨_, false, text⟩ => some (some text)
  | ⟨none, true, text⟩ => some (if text = "" ∨ text ∈ nullWords then none else some text)
  | ⟨some tag, true, text⟩ =>
    if tag ≠ nullTag then some (some text) else if text ∈ nullWords then some none else none

/-- The entries of a map by name; every key must be a scalar. -/
def namedNodes? (d : Yaml.Document) (entries : List (Yaml.Node × Yaml.Node)) :
    Option (List (String × Yaml.Node)) :=
  entries.mapM fun (key, value) => (d.scalar? key).map fun scalar => (scalar.text, value)

/-- The parameters in an indented text; an empty one gives none. -/
def ofYaml? (text : String) : Option Params :=
  (Yaml.document? text).bind fun d =>
    match d.root with
    | .map entries =>
      (namedNodes? d entries).bind
        (ofNamed? (fun node => (d.scalar? node).bind scalarValue?) [] .empty)
    | .scalar ⟨_, true, ""⟩ => some .empty
    | _ => none

/-! ## §4 Files -/

/-- The endings of the names of files that are indented texts. -/
def yamlEndings : List String := ["yaml", "yml"]

/-- The parameters in the file that a path leads to. -/
def load (tree : Files) (path : String) : Except Fault Params := do
  let text ← tree.readText path
  if yamlEndings.any (Path.hasExtension path) then
    match ofYaml? text with
    | some p => .ok p
    | none => .error .yaml
  else
    match ofJson? text with
    | some p => .ok p
    | none => .error .json

end Params

end MetadataCatalog
