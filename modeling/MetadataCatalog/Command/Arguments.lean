import MetadataCatalog.Decimal.Digits
import MetadataCatalog.Text.Pieces

/-!
# Reading a row of arguments

A command takes options, which begin with two dashes, and values at fixed positions. An option is a
switch or takes a value, in the same argument behind `=` or in the next one. Two dashes alone turn
all arguments behind them into values.

A value is looked at only when the next option or value that fits has been met: so an argument that
fits nowhere is reported before a value that is no good.
-/

namespace MetadataCatalog

/-! ## §1 Forms -/

/-- Why the arguments do not give a command that can be run. -/
inductive UsageStop where
  | help
  | version
  | nothingGiven
  | missingSubcommand
  | unknownSubcommand
  | missingArgument
  | unknownArgument
  | missingValue
  | invalidValue
  | repeatedArgument
  | needlessValue
  deriving DecidableEq, Repr

/-- Whether a stop is reported as an error, and not as an answer. -/
def UsageStop.isError : UsageStop → Bool
  | .help => false
  | .version => false
  | _ => true

/-- What a value must be: any text, a path, which is not empty, or a number of 64 bits. -/
inductive ValueForm where
  | text
  | path
  | number
  deriving DecidableEq, Repr

/-- An argument of a command: a switch, an option with a value, or a value at a position. -/
structure ArgumentForm where
  name : String
  value : ValueForm
  required : Bool
  deriving DecidableEq, Repr

/-- The arguments that a command takes; `version` says whether it can be asked for its version. -/
structure CommandForm where
  switches : List String
  options : List ArgumentForm
  positions : List ArgumentForm
  version : Bool
  deriving DecidableEq, Repr

/-! ## §2 Values -/

/-- The largest number that a value can be. -/
def numberLimit : Nat := Nat.pow 2 64 - 1

/-- The number that a value is: digits, perhaps behind a plus sign. -/
def number? (s : String) : Option Nat :=
  let digits := match s.toList with
    | '+' :: rest => rest
    | cs => cs
  if digits ≠ [] ∧ digits.all Decimal.isDigit ∧ Decimal.value digits ≤ numberLimit then
    some (Decimal.value digits)
  else none

/-- Accepts a value of the given form. -/
def ValueForm.check (form : ValueForm) (value : String) : Except UsageStop Unit :=
  match form with
  | .text => .ok ()
  | .path => if value = "" then .error .missingValue else .ok ()
  | .number => if (number? value).isSome then .ok () else .error .invalidValue

/-! ## §3 Reading -/

/-- An argument whose value has not been looked at: an option may still be without one. -/
structure Pending where
  form : ArgumentForm
  value : Option String
  deriving DecidableEq, Repr

/-- What has been read: the switches and values that are given, the argument whose value has not
been looked at, the positions that are free, and whether only values can follow. -/
structure Arguments where
  given : List (String × String)
  pending : Option Pending
  positions : List ArgumentForm
  valuesOnly : Bool
  deriving DecidableEq, Repr

namespace Arguments

/-- Before the first argument of a command. -/
def start (form : CommandForm) : Arguments := ⟨[], none, form.positions, false⟩

/-- The value that is given for an argument. -/
def value? (a : Arguments) (name : String) : Option String :=
  (a.given.find? (·.1 = name)).map Prod.snd

/-- Whether an argument is given. -/
def has (a : Arguments) (name : String) : Bool :=
  (a.value? name).isSome

/-- Gives an argument, which must not have been given before. -/
def give (a : Arguments) (name value : String) : Except UsageStop Arguments :=
  if a.has name then .error .repeatedArgument
  else .ok { a with given := a.given ++ [(name, value)] }

/-- Gives an argument with a value of the right form. -/
def giveValue (a : Arguments) (form : ArgumentForm) (value : String) :
    Except UsageStop Arguments := do
  let a ← a.give form.name value
  form.value.check value
  .ok a

/-- Looks at the value that has not been looked at. -/
def settle (a : Arguments) : Except UsageStop Arguments :=
  match a.pending with
  | none => .ok a
  | some ⟨_, none⟩ => .error .missingValue
  | some ⟨form, some value⟩ => { a with pending := none }.giveValue form value

/-- An argument that is not an option: the value of the option before it, or at a position. -/
def takeValue (a : Arguments) (value : String) : Except UsageStop Arguments :=
  match a.valuesOnly, a.pending, a.positions with
  | false, some ⟨form, none⟩, _ => .ok { a with pending := some ⟨form, some value⟩ }
  | _, _, [] => .error .unknownArgument
  | _, _, form :: rest => do
    let a ← a.settle
    .ok { a with pending := some ⟨form, some value⟩, positions := rest }

/-- A long option, with what stands behind its first `=`. -/
def takeLong (form : CommandForm) (a : Arguments) (name : String) (attached : Option String) :
    Except UsageStop Arguments :=
  let isHelp := name = "help"
  let isVersion := form.version && name = "version"
  if isHelp ∨ isVersion ∨ form.switches.contains name then
    match attached with
    | some _ => .error .needlessValue
    | none => do
      let a ← a.settle
      if isHelp then .error .help
      else if isVersion then .error .version
      else a.give name ""
  else match form.options.find? (·.name = name) with
    | none => .error .unknownArgument
    | some option => do
      let a ← a.settle
      match attached with
      | some value => a.giveValue option value
      | none => .ok { a with pending := some ⟨option, none⟩ }

/-- A short option; there are only those that ask for help and for the version. -/
def takeShort (form : CommandForm) (a : Arguments) (letter : Char) : Except UsageStop Arguments :=
  if letter = 'h' then do
    let _ ← a.settle
    .error .help
  else if letter = 'V' ∧ form.version then do
    let _ ← a.settle
    .error .version
  else .error .unknownArgument

/-- The parts of a text before and behind its first `=`. -/
def splitAttached (cs : List Char) : String × Option String :=
  let name := String.ofList (cs.takeWhile (· ≠ '='))
  match cs.dropWhile (· ≠ '=') with
  | [] => (name, none)
  | _ :: value => (name, some (String.ofList value))

/-- One argument. -/
def take (form : CommandForm) (a : Arguments) (argument : String) : Except UsageStop Arguments :=
  if a.valuesOnly then a.takeValue argument
  else match argument.toList with
    | ['-', '-'] => .ok { a with valuesOnly := true }
    | '-' :: '-' :: cs =>
      let (name, attached) := splitAttached cs
      takeLong form a name attached
    | '-' :: letter :: _ => takeShort form a letter
    | _ => a.takeValue argument

/-- The arguments when the row ends here: all that are required must be given. -/
def finish (form : CommandForm) (a : Arguments) : Except UsageStop Arguments := do
  let a ← a.settle
  if (form.options ++ form.positions).all fun argument => !argument.required || a.has argument.name
  then .ok a
  else .error .missingArgument

/-- The arguments of a command. -/
def read (form : CommandForm) (arguments : List String) : Except UsageStop Arguments := do
  let a ← arguments.foldlM (take form) (start form)
  finish form a

end Arguments

end MetadataCatalog
