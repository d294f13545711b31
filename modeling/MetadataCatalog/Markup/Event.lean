/-!
# Markup

A marked-up text is a row of events: start tags, end tags, empty tags, texts between the tags, and
asides, which are comments, character data sections, declarations and processing instructions. The
reader checks little: an end tag must close the element that was opened last, and tags and asides
must come to an end. Elements may stay open, attributes are passed over, and texts stay as they are
written.

The reader is a machine that is fed character by character. `Mode` says in which part of the markup
it stands, with what it has read of that part in reverse.
-/

namespace MetadataCatalog.Markup

/-! ## §1 Events -/

/-- A part of a marked-up text. -/
inductive Event where
  | opening (name : String)
  | closing (name : String)
  | empty (name : String)
  | text (written : List Char)
  | aside
  deriving DecidableEq, Repr

/-- The part of the markup in which the reader stands. -/
inductive Mode where
  | text (read : List Char)
  | angle
  | tag (read : List Char) (quote : Option Char)
  | endTag (read : List Char)
  | instruction (read : List Char)
  | declaration (read : List Char)
  | failed
  deriving DecidableEq, Repr

/-- The reader: its mode, the names of the open elements, innermost first, and the events so far in
reverse. -/
structure State where
  mode : Mode
  openNames : List String
  events : List Event
  deriving DecidableEq, Repr

namespace State

/-- Before the first character. -/
def start : State := ⟨.text [], [], []⟩

/-- The reader behind an event. -/
def emit (s : State) (event : Event) : State :=
  { s with mode := .text [], events := event :: s.events }

/-- Nothing more can be read. -/
def fail (s : State) : State := { s with mode := .failed }

/-- The reader behind a text, of which nothing is said if it is empty. -/
def emitText (s : State) (read : List Char) : State :=
  if read = [] then s else s.emit (.text read.reverse)

end State

/-! ## §2 Tags -/

/-- The blanks that end the name in a tag. -/
def isTagBlank (c : Char) : Bool :=
  c == ' ' || c == '\t' || c == '\n' || c == '\r'

/-- A start tag or empty tag with the given characters between its brackets; a slash at the end
makes it empty. -/
def finishTag (s : State) (read : List Char) : State :=
  let nameOf (content : List Char) := String.ofList (content.takeWhile (!isTagBlank ·))
  match read with
  | '/' :: before => s.emit (.empty (nameOf before.reverse))
  | _ =>
    let name := nameOf read.reverse
    { s with openNames := name :: s.openNames }.emit (.opening name)

/-- An end tag with the given characters behind its slash. -/
def finishEndTag (s : State) (read : List Char) : State :=
  let trimmed := read.dropWhile isTagBlank
  let name := String.ofList (if trimmed = [] then read.reverse else trimmed.reverse)
  match s.openNames with
  | expected :: rest =>
    if name = expected then { s with openNames := rest }.emit (.closing name) else s.fail
  | [] => s.fail

/-! ## §3 Asides -/

/-- A processing instruction with the given characters behind its first question mark. -/
def finishInstruction (s : State) (read : List Char) : State :=
  match read with
  | '?' :: _ :: _ => s.emit .aside
  | _ => s.fail

/-- Whether a character sequence begins with the given characters, in any case. -/
def beginsWith (start cs : List Char) : Bool :=
  (cs.take start.length).map Char.toUpper == start

/-- The character data section, comment or document type that has the given characters behind its
exclamation mark when a closing bracket follows, or nothing if it goes on. -/
def finishDeclaration? (s : State) (read : List Char) : Option State :=
  let content := read.reverse
  match content with
  | '-' :: _ =>
    if read.take 2 = ['-', '-'] ∧ 4 ≤ read.length then
      some (if content.take 2 = ['-', '-'] then s.emit .aside else s.fail)
    else none
  | '[' :: _ =>
    if read.take 2 = [']', ']'] then
      some (if beginsWith "[CDATA[".toList content then s.emit .aside else s.fail)
    else none
  | _ =>
    if content.count '<' = content.count '>' then
      some (if beginsWith "DOCTYPE".toList content ∧ (content.drop 7).any (!isTagBlank ·) then
        s.emit .aside else s.fail)
    else none

/-- Whether a declaration can begin with a character. -/
def startsDeclaration (c : Char) : Bool :=
  c == '-' || c == '[' || c == 'D' || c == 'd'

/-! ## §4 Reading -/

/-- One transition. -/
def step (s : State) (c : Char) : State :=
  match s.mode with
  | .failed => s
  | .text read =>
    if c = '<' then { s.emitText read with mode := .angle }
    else { s with mode := .text (c :: read) }
  | .angle =>
    if c = '!' then { s with mode := .declaration [] }
    else if c = '/' then { s with mode := .endTag [] }
    else if c = '?' then { s with mode := .instruction [] }
    else if c = '>' then finishTag s []
    else if c = '"' ∨ c = '\'' then { s with mode := .tag [c] (some c) }
    else { s with mode := .tag [c] none }
  | .tag read none =>
    if c = '>' then finishTag s read
    else if c = '"' ∨ c = '\'' then { s with mode := .tag (c :: read) (some c) }
    else { s with mode := .tag (c :: read) none }
  | .tag read (some quote) =>
    { s with mode := .tag (c :: read) (if c = quote then none else some quote) }
  | .endTag read => if c = '>' then finishEndTag s read else { s with mode := .endTag (c :: read) }
  | .instruction read =>
    if c = '>' then finishInstruction s read else { s with mode := .instruction (c :: read) }
  | .declaration [] =>
    if startsDeclaration c then { s with mode := .declaration [c] } else s.fail
  | .declaration read =>
    let more := { s with mode := .declaration (c :: read) }
    if c = '>' then (finishDeclaration? s read).getD more else more

/-- The events when the text ends here; an end tag or instruction may then lack its bracket. -/
def finish? (s : State) : Option (List Event) :=
  let done : State := match s.mode with
    | .text read => s.emitText read
    | .angle => { s with mode := .text [] }
    | .endTag read => finishEndTag s read
    | .instruction read => finishInstruction s read
    | _ => s.fail
  if done.mode = .failed then none else some done.events.reverse

/-- The events of a text; a byte order mark in front does not count. -/
def events? (cs : List Char) : Option (List Event) :=
  finish? ((([Char.ofNat 0xFEFF].isPrefixOf? cs).getD cs).foldl step .start)

end MetadataCatalog.Markup
