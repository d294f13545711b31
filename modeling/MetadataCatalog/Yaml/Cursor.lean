/-!
# Places in a text

Indented texts are read with a cursor, which knows what is left of the text, how many bytes it has
passed, and on which line and in which column it stands. Behind the end of the text it sees NUL,
which no such text contains.

Readers are steps that are repeated until they are done; each step of a reader takes something from
the text, so there are never more steps than characters.
-/

namespace MetadataCatalog.Yaml

/-! ## §1 Characters -/

/-- What stands behind the end of a text. -/
def nul : Char := Char.ofNat 0

/-- The byte order mark. -/
def byteOrderMark : Char := Char.ofNat 0xFEFF

/-- A space or a tab. -/
def isGap (c : Char) : Bool :=
  c == ' ' || c == '\t'

/-- A line break: carriage return, line feed, NEL, or a separator of lines or paragraphs. -/
def isBreak (c : Char) : Bool :=
  c == '\r' || c == '\n' || c.toNat == 0x85 || c.toNat == 0x2028 || c.toNat == 0x2029

/-- A line break, or the end. -/
def isLineEnd (c : Char) : Bool :=
  isBreak c || c == nul

/-- A space, a tab, a line break, or the end. -/
def isSpacing (c : Char) : Bool :=
  isGap c || isLineEnd c

/-- The characters of names: letters and digits of ASCII, the dash and the underscore. -/
def isNameChar (c : Char) : Bool :=
  c.isAlphanum || c == '-' || c == '_'

/-- The characters that a text may contain; other controls and the surrogates' neighbours are
excluded. -/
def isAllowed (c : Char) : Bool :=
  let n := c.toNat
  n == 0x09 || n == 0x0A || n == 0x0D || (0x20 ≤ n && n ≤ 0x7E) || n == 0x85 ||
    (0xA0 ≤ n && n ≤ 0xFFFD) || 0x10000 ≤ n

/-! ## §2 The cursor -/

/-- A place in a text, and what is left of the text from there on. The offset counts bytes, the
column characters. -/
structure Cursor where
  rest : List Char
  offset : Nat
  line : Nat
  column : Nat

namespace Cursor

/-- The beginning of a text. -/
def start (cs : List Char) : Cursor := ⟨cs, 0, 0, 0⟩

/-- The character `n` places further on. -/
def look (c : Cursor) (n : Nat) : Char :=
  (c.rest[n]?).getD nul

/-- The character at the cursor. -/
def here (c : Cursor) : Char :=
  c.look 0

/-- The bytes that characters take. -/
def bytes (cs : List Char) : Nat :=
  (cs.map Char.utf8Size).foldr (· + ·) 0

/-- Behind the next `n` characters, none of which is a line break. -/
def skip (c : Cursor) (n : Nat) : Cursor :=
  { c with
    rest := c.rest.drop n, offset := c.offset + bytes (c.rest.take n), column := c.column + n }

/-- Behind the line break at the cursor; a carriage return and a line feed are one break. -/
def skipBreak (c : Cursor) : Cursor :=
  let n := if c.here = '\r' ∧ c.look 1 = '\n' then 2 else if isBreak c.here then 1 else 0
  if n = 0 then c
  else
    { rest := c.rest.drop n, offset := c.offset + bytes (c.rest.take n), line := c.line + 1
      column := 0 }

/-- What the line break at the cursor is read as: a line feed, except for the separators of lines
and paragraphs. -/
def breakRead (c : Cursor) : List Char :=
  if c.here.toNat = 0x2028 ∨ c.here.toNat = 0x2029 then [c.here]
  else if isBreak c.here then ['\n'] else []

/-- The characters from the cursor on for which a test holds. -/
def span (c : Cursor) (test : Char → Bool) : List Char :=
  c.rest.takeWhile test

/-- Behind the characters for which a test holds, which excludes line breaks. -/
def skipWhile (c : Cursor) (test : Char → Bool) : Cursor :=
  c.skip (c.span test).length

/-- Behind the rest of the line, if nothing but a comment is left on it. -/
def skipComment? (c : Cursor) : Option Cursor :=
  let c := c.skipWhile isGap
  let c := if c.here = '#' then c.skipWhile (!isLineEnd ·) else c
  if isLineEnd c.here then some c.skipBreak else none

/-- Whether a document marker, three dashes or three dots, stands at the cursor. -/
def atMarker (c : Cursor) : Bool :=
  c.column == 0 && (c.rest.take 3 == ['-', '-', '-'] || c.rest.take 3 == ['.', '.', '.']) &&
    isSpacing (c.look 3)

end Cursor

/-! ## §3 Repeated steps -/

/-- The outcome of one step of a reader. -/
inductive Step (σ β : Type) where
  | next (state : σ)
  | done (result : β)
  | fail

/-- Repeats a step, but not more often than the given number of times. -/
def Step.repeat {σ β : Type} (step : σ → Step σ β) : Nat → σ → Option β
  | 0, _ => none
  | n + 1, state =>
    match step state with
    | .next state => Step.repeat step n state
    | .done result => some result
    | .fail => none

/-- Repeats a step that takes something from the text each time it goes on. -/
def Cursor.read {σ β : Type} (c : Cursor) (step : σ → Step σ β) (state : σ) : Option β :=
  Step.repeat step (c.rest.length + 2) state

end MetadataCatalog.Yaml
