import MetadataCatalog.Json.Numeral
import MetadataCatalog.Json.Value
import MetadataCatalog.Text.Hex

/-!
# Reading JSON

The reader is a machine that is fed the text character by character. It keeps the containers that
are still open, innermost first, and a `Mode` that says what may come next; `Reader.step` is one
transition and a text is read by folding it over the characters.

A `Reader.Rules` value fixes what a text may hold: how deep containers may nest, whether a repeated
name of an object replaces the earlier value, and which members of the outermost object are looked
at only for their form, so that any nesting, any surrogate and any size of number passes there.
-/

namespace MetadataCatalog.Json.Reader

/-! ## §1 The machine -/

/-- What a text may hold. -/
structure Rules where
  depthLimit : Nat
  mergeRepeats : Bool
  formOnly : String → Bool

/-- A container that is still open, its contents in reverse; an object with the name of the entry
that is being read. -/
inductive Frame where
  | list (items : List Json)
  | object (entries : Entries) (name : String)

/-- What may come next. -/
inductive Mode where
  | value
  | firstItem
  | firstName
  | name
  | colon
  | next
  | word (rest : List Char) (meaning : Json)
  | number (read : List Char)
  | string (isName : Bool) (read : List Char)
  | escape (isName : Bool) (read : List Char)
  | code (isName : Bool) (read : List Char) (high : Option Nat) (digits : Nat) (sum : Nat)
  | lowEscape (isName : Bool) (read : List Char) (high : Nat)
  | lowCode (isName : Bool) (read : List Char) (high : Nat)
  | failed

/-- The machine: what may come next, the open containers, and the value that has been read when
none is open. -/
structure State where
  mode : Mode
  frames : List Frame
  result : Option Json

/-- Before the first character. -/
def State.start : State := ⟨.value, [], none⟩

/-- Nothing more can be read. -/
def State.fail : State := ⟨.failed, [], none⟩

/-- Blanks between the parts of a text. -/
def isSpace (c : Char) : Bool :=
  c == ' ' || c == '\t' || c == '\n' || c == '\r'

/-! ## §2 Finishing a part -/

/-- Whether the present place is inside a member that is looked at only for its form. -/
def formOnlyHere (rules : Rules) (isName : Bool) (frames : List Frame) : Bool :=
  match frames.getLast? with
  | some (.object _ name) => rules.formOnly name && !(isName && frames.length == 1)
  | _ => false

/-- Hands a finished value to the innermost open container. -/
def deliver (value : Json) : List Frame → State
  | [] => ⟨.next, [], some value⟩
  | .list items :: frames => ⟨.next, .list (value :: items) :: frames, none⟩
  | .object entries name :: frames =>
    ⟨.next, .object ((name, value) :: entries) name :: frames, none⟩

/-- Opens a container if the depth allows it. -/
def push (rules : Rules) (frame : Frame) (mode : Mode) (frames : List Frame) : State :=
  if frames.length < rules.depthLimit ∨ formOnlyHere rules false frames then
    ⟨mode, frame :: frames, none⟩
  else .fail

/-- The object that the entries make up. -/
def close (rules : Rules) (entries : Entries) : Json :=
  .object (if rules.mergeRepeats then Entries.merge entries.reverse else entries.reverse)

/-- Hands a finished text to the entry or value that it is. -/
def deliverText (isName : Bool) (read : List Char) (frames : List Frame) : State :=
  let s := String.ofList read.reverse
  if isName then
    match frames with
    | .object entries _ :: rest => ⟨.colon, .object entries s :: rest, none⟩
    | _ => .fail
  else deliver (.text s) frames

/-- Hands over a finished number. -/
def deliverNumber (rules : Rules) (read : List Char) (frames : List Frame) : State :=
  match Numeral.ofChars? read.reverse with
  | none => .fail
  | some n =>
    match n.value? with
    | some v => deliver v frames
    | none => if formOnlyHere rules false frames then deliver .null frames else .fail

/-! ## §3 One character -/

/-- The first character of a value. -/
def startValue (rules : Rules) (frames : List Frame) (c : Char) : State :=
  if c = '"' then ⟨.string false [], frames, none⟩
  else if c = '[' then push rules (.list []) .firstItem frames
  else if c = '{' then push rules (.object [] "") .firstName frames
  else if c = 't' then ⟨.word ['r', 'u', 'e'] (.boolean true), frames, none⟩
  else if c = 'f' then ⟨.word ['a', 'l', 's', 'e'] (.boolean false), frames, none⟩
  else if c = 'n' then ⟨.word ['u', 'l', 'l'] .null, frames, none⟩
  else if c = '-' ∨ Decimal.isDigit c then ⟨.number [c], frames, none⟩
  else .fail

/-- The character after a value: a comma, a closing bracket or a blank. -/
def afterValue (rules : Rules) (state : State) (c : Char) : State :=
  if isSpace c then state
  else match state.frames with
    | .list items :: frames =>
      if c = ',' then { state with mode := .value }
      else if c = ']' then deliver (.list items.reverse) frames
      else .fail
    | .object entries _ :: frames =>
      if c = ',' then { state with mode := .name }
      else if c = '}' then deliver (close rules entries) frames
      else .fail
    | [] => .fail

/-- The character that an escape of one letter stands for. -/
def escaped? (c : Char) : Option Char :=
  match c with
  | '"' => some '"'
  | '\\' => some '\\'
  | '/' => some '/'
  | 'b' => some (Char.ofNat 8)
  | 'f' => some (Char.ofNat 12)
  | 'n' => some '\n'
  | 'r' => some '\r'
  | 't' => some '\t'
  | _ => none

/-- A complete escape of four digits: a character, or one half of a pair. -/
def finishCode (lenient isName : Bool) (read : List Char) (high : Option Nat) (code : Nat) :
    Option Mode :=
  let stray : List Char := [Char.ofNat 0xFFFD]
  let isHigh := 0xD800 ≤ code && code < 0xDC00
  let isLow := 0xDC00 ≤ code && code < 0xE000
  if lenient then
    some (.string isName (if isHigh || isLow then stray ++ read else Char.ofNat code :: read))
  else match high with
    | none =>
      if isHigh then some (.lowEscape isName read code)
      else if isLow then none
      else some (.string isName (Char.ofNat code :: read))
    | some h =>
      if isLow then
        some (.string isName
          (Char.ofNat (0x10000 + (h - 0xD800) * 0x400 + (code - 0xDC00)) :: read))
      else none

/-- A character between the quotes of a text. -/
def stepString (isName : Bool) (read : List Char) (frames : List Frame) (c : Char) : State :=
  if c = '"' then deliverText isName read frames
  else if c = '\\' then ⟨.escape isName read, frames, none⟩
  else if c.toNat < 32 then .fail
  else ⟨.string isName (c :: read), frames, none⟩

/-- One transition. -/
def step (rules : Rules) (state : State) (c : Char) : State :=
  let frames := state.frames
  match state.mode with
  | .failed => .fail
  | .value => if isSpace c then state else startValue rules frames c
  | .firstItem =>
    if isSpace c then state
    else if c = ']' then deliver (.list []) frames.tail
    else startValue rules frames c
  | .firstName =>
    if isSpace c then state
    else if c = '}' then deliver (.object []) frames.tail
    else if c = '"' then ⟨.string true [], frames, none⟩
    else .fail
  | .name =>
    if isSpace c then state
    else if c = '"' then ⟨.string true [], frames, none⟩
    else .fail
  | .colon =>
    if isSpace c then state
    else if c = ':' then ⟨.value, frames, none⟩
    else .fail
  | .next => afterValue rules state c
  | .word [] _ => .fail
  | .word (d :: rest) meaning =>
    if c ≠ d then .fail
    else if rest = [] then deliver meaning frames
    else ⟨.word rest meaning, frames, none⟩
  | .number read =>
    if Decimal.isDigit c ∨ c = '-' ∨ c = '+' ∨ c = '.' ∨ c = 'e' ∨ c = 'E' then
      ⟨.number (c :: read), frames, none⟩
    else
      let done := deliverNumber rules read frames
      match done.mode with
      | .next => afterValue rules done c
      | _ => .fail
  | .string isName read => stepString isName read frames c
  | .escape isName read =>
    if c = 'u' then ⟨.code isName read none 0 0, frames, none⟩
    else match escaped? c with
      | some d => ⟨.string isName (d :: read), frames, none⟩
      | none => .fail
  | .code isName read high digits sum =>
    match Text.hexValue? c with
    | none => .fail
    | some d =>
      if digits < 3 then ⟨.code isName read high (digits + 1) (16 * sum + d), frames, none⟩
      else match finishCode (formOnlyHere rules isName frames) isName read high (16 * sum + d) with
        | some mode => ⟨mode, frames, none⟩
        | none => .fail
  | .lowEscape isName read high =>
    if c = '\\' then ⟨.lowCode isName read high, frames, none⟩ else .fail
  | .lowCode isName read high =>
    if c = 'u' then ⟨.code isName read (some high) 0 0, frames, none⟩ else .fail

/-! ## §4 Whole texts -/

/-- The value that has been read when the text ends here. -/
def finish (rules : Rules) (state : State) : Option Json :=
  match state.mode, state.frames with
  | .next, [] => state.result
  | .number read, [] => (deliverNumber rules read []).result
  | _, _ => none

/-- The value of a text, if the text is JSON under the given rules. -/
def read? (rules : Rules) (s : String) : Option Json :=
  finish rules (s.toList.foldl (step rules) .start)

/-- Documents: containers nest 127 deep, and of a repeated name the last value counts. -/
def Rules.document : Rules := ⟨127, true, fun _ => false⟩

end Reader

/-- The document that a text holds. -/
def read? (s : String) : Option Json :=
  Reader.read? .document s

end MetadataCatalog.Json
