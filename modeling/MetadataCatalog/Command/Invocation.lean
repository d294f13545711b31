import MetadataCatalog.Command.Arguments

/-!
# Invocations

The first argument that is not an option names the command; options before it concern all commands.
`Invocation.ofArguments` reads the arguments behind the name of the program.
-/

namespace MetadataCatalog

/-- A command with its arguments. -/
inductive Command where
  | schema (workbook site : String) (output : Option String) (keysOnly : Bool)
  | inspect (workbook : String) (sheet : Option String) (rows : Nat)
  | initDb (params : String)
  | ingest (params : String)
  | find (params query : String) (listFiles json : Bool)
  | files (params dataset : String)
  deriving DecidableEq, Repr

/-- A command, and whether it is to say more about what it does. -/
structure Invocation where
  command : Command
  verbose : Bool
  deriving DecidableEq, Repr

/-- The names of the commands. -/
inductive CommandName where
  | schema
  | inspect
  | initDb
  | ingest
  | find
  | files
  deriving DecidableEq, Repr

namespace CommandName

/-- All names. -/
def all : List CommandName := [.schema, .inspect, .initDb, .ingest, .find, .files]

/-- The written form of a name. -/
def text : CommandName → String
  | .schema => "schema"
  | .inspect => "inspect"
  | .initDb => "init-db"
  | .ingest => "ingest"
  | .find => "find"
  | .files => "files"

/-- The name with the given written form. -/
def ofText? (s : String) : Option CommandName :=
  all.find? (·.text = s)

/-- The switch that every command takes. -/
def verbose : String := "verbose"

/-- The file of parameters, which four commands need. -/
def paramsForm : ArgumentForm := ⟨"params", .path, true⟩

/-- The workbook, which two commands need. -/
def workbookForm : ArgumentForm := ⟨"workbook", .path, true⟩

/-- The arguments that a command takes. -/
def form : CommandName → CommandForm
  | .schema =>
    ⟨["keys-only", verbose], [],
      [workbookForm, ⟨"site", .text, true⟩, ⟨"output", .text, false⟩], false⟩
  | .inspect =>
    ⟨[verbose], [⟨"sheet", .text, false⟩, ⟨"rows", .number, false⟩], [workbookForm], false⟩
  | .initDb => ⟨[verbose], [paramsForm], [], false⟩
  | .ingest => ⟨[verbose], [paramsForm], [], false⟩
  | .find => ⟨["list-files", "json", verbose], [paramsForm, ⟨"query", .text, true⟩], [], false⟩
  | .files => ⟨[verbose], [paramsForm], [⟨"dataset", .text, true⟩], false⟩

/-- The number of rows that are shown of a sheet when nothing else is asked for. -/
def defaultRows : Nat := 25

/-- The command of the given name and arguments. -/
def command (name : CommandName) (a : Arguments) : Command :=
  let text (name : String) : String := (a.value? name).getD ""
  match name with
  | .schema => .schema (text "workbook") (text "site") (a.value? "output") (a.has "keys-only")
  | .inspect =>
    .inspect (text "workbook") (a.value? "sheet")
      (((a.value? "rows").bind number?).getD defaultRows)
  | .initDb => .initDb (text "params")
  | .ingest => .ingest (text "params")
  | .find => .find (text "params") (text "query") (a.has "list-files") (a.has "json")
  | .files => .files (text "params") (text "dataset")

end CommandName

/-- The name of a command. -/
def Command.name : Command → CommandName
  | .schema .. => .schema
  | .inspect .. => .inspect
  | .initDb .. => .initDb
  | .ingest .. => .ingest
  | .find .. => .find
  | .files .. => .files

namespace Invocation

/-- The name that asks for help about the commands behind it. -/
def helpName : String := "help"

/-- The arguments that can stand before the name of a command. -/
def commonForm : CommandForm := ⟨[CommandName.verbose], [], [], true⟩

/-- What is asked about: nothing, one command, or help itself. -/
def helpAbout : List String → UsageStop
  | [] => .help
  | [name] =>
    if name = helpName ∨ (CommandName.ofText? name).isSome then .help else .unknownSubcommand
  | _ => .unknownSubcommand

/-- The command behind the common arguments. -/
def ofCommon (common : Arguments) (name : CommandName) (arguments : List String) :
    Except UsageStop Invocation := do
  let a ← Arguments.read name.form arguments
  .ok ⟨name.command a, common.has CommandName.verbose || a.has CommandName.verbose⟩

/-- Reads arguments behind the common ones. -/
def read (common : Arguments) : List String → Except UsageStop Invocation
  | [] => .error (if common.given = [] then .nothingGiven else .missingSubcommand)
  | argument :: rest =>
    let name? := CommandName.ofText? argument
    if common.valuesOnly then
      .error (if name?.isSome ∨ argument = helpName then .unknownArgument else .unknownSubcommand)
    else if argument = helpName then .error (helpAbout rest)
    else match name? with
      | some name => ofCommon common name rest
      | none =>
        match common.take commonForm argument with
        | .ok common => read common rest
        | .error .unknownArgument =>
          .error (if isOption argument then .unknownArgument else .unknownSubcommand)
        | .error stop => .error stop
where
  /-- Whether an argument has the form of an option. -/
  isOption (argument : String) : Bool :=
    match argument.toList with
    | '-' :: _ :: _ => true
    | _ => false

/-- The invocation that arguments are. -/
def ofArguments (arguments : List String) : Except UsageStop Invocation :=
  read (Arguments.start commonForm) arguments

end Invocation

end MetadataCatalog
