import MetadataCatalog.Yaml.Cursor
import MetadataCatalog.Text.Hex

/-!
# Scalars

A scalar is written plain, between single or double quotes, or as an indented block. Lines of a
plain or quoted scalar are folded: one line break between them becomes a space, and of several the
first one is dropped. Between double quotes a backslash begins an escape. A block keeps its line
breaks, or folds those between lines that are not indented further.
-/

namespace MetadataCatalog.Yaml

/-! ## §1 Spacing inside a scalar -/

/-- The spacing between two words of a scalar: the gaps on the first line, whether a line has been
ended, the first line break and the later ones. -/
structure Spacing where
  gaps : List Char
  broken : Bool
  first : List Char
  later : List Char

namespace Spacing

/-- No spacing. -/
def none : Spacing := ⟨[], false, [], []⟩

/-- What the spacing is read as before a further word. -/
def folded (s : Spacing) : List Char :=
  if s.broken then
    if s.first = ['\n'] then (if s.later = [] then [' '] else s.later) else s.first ++ s.later
  else s.gaps

/-- One step through spacing: a gap or a line break. A tab left of the given column on a later line
is not allowed. -/
def step (leftmost : Nat) : Spacing × Cursor → Step (Spacing × Cursor) (Spacing × Cursor)
  | (s, c) =>
    if isGap c.here then
      if s.broken ∧ c.column < leftmost ∧ c.here = '\t' then .fail
      else if s.broken then .next (s, c.skip 1)
      else .next ({ s with gaps := s.gaps ++ [c.here] }, c.skip 1)
    else if isBreak c.here then
      if s.broken then .next ({ s with later := s.later ++ c.breakRead }, c.skipBreak)
      else .next ({ s with gaps := [], broken := true, first := c.breakRead }, c.skipBreak)
    else .done (s, c)

/-- The spacing from a cursor on, and the cursor behind it. -/
def read? (leftmost : Nat) (s : Spacing) (c : Cursor) : Option (Spacing × Cursor) :=
  c.read (step leftmost) (s, c)

end Spacing

/-! ## §2 Plain scalars -/

/-- The characters that have a meaning between brackets. -/
def isFlowMark (c : Char) : Bool :=
  c == ',' || c == '[' || c == ']' || c == '{' || c == '}'

/-- Whether a plain scalar ends before the character at the cursor. -/
def endsPlain (inFlow : Bool) (c : Cursor) : Bool :=
  isSpacing c.here || (c.here == ':' && isSpacing (c.look 1)) || (inFlow && isFlowMark c.here)

/-- Whether a colon stands at the cursor that is not allowed between brackets. -/
def strayColon (inFlow : Bool) (c : Cursor) : Bool :=
  inFlow && c.here == ':' && (isFlowMark (c.look 1) || c.look 1 == '?')

/-- A plain scalar that is being read, with the spacing behind its last word. -/
structure Plain where
  text : List Char
  spacing : Spacing

/-- One step through a plain scalar, whose lines are indented by at least `indent`: a character, or
the spacing before the next word. The result says whether the scalar ended behind a line break. -/
def plainStep (inFlow : Bool) (indent : Nat) :
    Plain × Cursor → Step (Plain × Cursor) (List Char × Bool × Cursor)
  | (p, c) =>
    if strayColon inFlow c then .fail
    else if !endsPlain inFlow c then
      .next (⟨p.text ++ p.spacing.folded ++ [c.here], .none⟩, c.skip 1)
    else if isGap c.here ∨ isBreak c.here then
      match Spacing.read? indent .none c with
      | none => .fail
      | some (spacing, after) =>
        if (!inFlow && after.column < indent) || after.atMarker || after.here == '#' ||
            (endsPlain inFlow after && !strayColon inFlow after) then
          .done (p.text, spacing.broken, after)
        else .next (⟨p.text, spacing⟩, after)
    else .done (p.text, false, c)

/-- A plain scalar at a cursor, whether it ended behind a line break, and the cursor behind it. -/
def plain? (inFlow : Bool) (indent : Nat) (c : Cursor) : Option (List Char × Bool × Cursor) :=
  c.read (plainStep inFlow indent) (⟨[], .none⟩, c)

/-! ## §3 Quoted scalars -/

/-- The character that an escape of one letter stands for. -/
def escaped? (c : Char) : Option Char :=
  match c with
  | '0' => some nul
  | 'a' => some (Char.ofNat 7)
  | 'b' => some (Char.ofNat 8)
  | 't' => some '\t'
  | '\t' => some '\t'
  | 'n' => some '\n'
  | 'v' => some (Char.ofNat 11)
  | 'f' => some (Char.ofNat 12)
  | 'r' => some '\r'
  | 'e' => some (Char.ofNat 27)
  | ' ' => some ' '
  | '"' => some '"'
  | '/' => some '/'
  | '\\' => some '\\'
  | 'N' => some (Char.ofNat 0x85)
  | '_' => some (Char.ofNat 0xA0)
  | 'L' => some (Char.ofNat 0x2028)
  | 'P' => some (Char.ofNat 0x2029)
  | _ => none

/-- How many digits the escape of a code point has. -/
def codeLength? (c : Char) : Option Nat :=
  match c with
  | 'x' => some 2
  | 'u' => some 4
  | 'U' => some 8
  | _ => none

/-- The character with the code point that hexadecimal digits give. -/
def codePoint? (digits : List Char) : Option Char := do
  let code ← digits.foldlM (fun n c => (Text.hexValue? c).map (16 * n + ·)) 0
  if code.isValidChar then some (Char.ofNat code) else none

/-- The escape behind a backslash at the cursor: its character, and the cursor behind it. -/
def escape? (c : Cursor) : Option (Char × Cursor) :=
  match codeLength? (c.look 1) with
  | some n =>
    if c.rest.length < n + 2 then none
    else (codePoint? ((c.rest.drop 2).take n)).map fun d => (d, c.skip (n + 2))
  | none => (escaped? (c.look 1)).map fun d => (d, c.skip 2)

/-- The spacing at the cursor inside a quoted scalar, joined to what has been read. -/
def quotedSpacing (read : List Char) (s : Spacing) (c : Cursor) :
    Step (List Char × Cursor) (List Char × Cursor) :=
  match Spacing.read? 0 s c with
  | some (spacing, after) => if after.atMarker then .fail else .next (read ++ spacing.folded, after)
  | none => .fail

/-- One step through a quoted scalar: a character, a doubled quote, an escape, or spacing. -/
def quotedStep (single : Bool) :
    List Char × Cursor → Step (List Char × Cursor) (List Char × Cursor)
  | (read, c) =>
    let quote := if single then '\'' else '"'
    if c.here = nul then .fail
    else if single ∧ c.here = quote ∧ c.look 1 = quote then .next (read ++ [quote], c.skip 2)
    else if c.here = quote then .done (read, c.skip 1)
    else if !single ∧ c.here = '\\' then
      if isBreak (c.look 1) then
        quotedSpacing read { Spacing.none with broken := true } (c.skip 1).skipBreak
      else match escape? c with
        | some (d, after) => .next (read ++ [d], after)
        | none => .fail
    else if isSpacing c.here then quotedSpacing read .none c
    else .next (read ++ [c.here], c.skip 1)

/-- A quoted scalar behind its opening quote, and the cursor behind the closing one. -/
def quoted? (single : Bool) (c : Cursor) : Option (List Char × Cursor) :=
  c.read (quotedStep single) ([], c)

/-! ## §4 Blocks -/

/-- What happens to the line breaks at the end of a block. -/
inductive Chomping where
  | strip
  | clip
  | keep
  deriving DecidableEq, Repr

/-- The header of a block: its chomping, its indentation if that is given, and the cursor on the
first line of the block. -/
def blockHeader? (c : Cursor) : Option (Chomping × Option Nat × Cursor) := do
  let chomping (c : Cursor) : Chomping × Cursor :=
    if c.here = '-' then (.strip, c.skip 1)
    else if c.here = '+' then (.keep, c.skip 1)
    else (.clip, c)
  let indentation (c : Cursor) : Option (Option Nat × Cursor) :=
    if c.here = '0' then none
    else if c.here.isDigit then some (Text.hexValue? c.here, c.skip 1)
    else some (none, c)
  let (chomp, c) := chomping c
  let (indent, c) ← indentation c
  let (chomp, c) := if chomp = .clip ∧ indent.isSome then chomping c else (chomp, c)
  let c ← c.skipComment?
  some (chomp, indent, c)

/-- The empty lines before a line of a block: the widest indentation seen so far, the line breaks
so far, and the cursor. -/
structure EmptyLines where
  widest : Nat
  breaks : List Char
  cursor : Cursor

/-- One step through the empty lines of a block, whose indentation is not known if it is zero. -/
def emptyLinesStep (indent : Nat) (s : EmptyLines) : Step EmptyLines EmptyLines :=
  let spaces := (s.cursor.span (· = ' ')).length
  let c := s.cursor.skip (if indent = 0 then spaces else min spaces (indent - s.cursor.column))
  let widest := max s.widest c.column
  if (indent = 0 ∨ c.column < indent) ∧ c.here = '\t' then .fail
  else if isBreak c.here then .next ⟨widest, s.breaks ++ c.breakRead, c.skipBreak⟩
  else .done ⟨widest, s.breaks, c⟩

/-- The empty lines at a cursor. -/
def emptyLines? (indent : Nat) (c : Cursor) : Option EmptyLines :=
  c.read (emptyLinesStep indent) ⟨0, [], c⟩

/-- A block that is being read: its text, the last line break, whether the last line began with a
gap, and the empty lines behind it. -/
structure Block where
  text : List Char
  lastBreak : List Char
  wasIndented : Bool
  lines : EmptyLines

/-- What stands between the last line of a block and the next one. -/
def Block.seam (literal : Bool) (b : Block) : List Char :=
  if !literal ∧ b.lastBreak = ['\n'] ∧ !b.wasIndented ∧ !isGap b.lines.cursor.here then
    (if b.lines.breaks = [] then [' '] else b.lines.breaks)
  else b.lastBreak ++ b.lines.breaks

/-- One step through a block: one line with the empty lines behind it. -/
def blockStep (literal : Bool) (chomping : Chomping) (indent : Nat) (b : Block) :
    Step Block (List Char × Cursor) :=
  let c := b.lines.cursor
  if c.column = indent ∧ c.here ≠ nul then
    let line := c.span (!isLineEnd ·)
    let c' := c.skip line.length
    match emptyLines? indent c'.skipBreak with
    | none => .fail
    | some lines => .next ⟨b.text ++ b.seam literal ++ line, c'.breakRead, isGap c.here, lines⟩
  else
    .done
      (match chomping with
        | .strip => b.text
        | .clip => b.text ++ b.lastBreak
        | .keep => b.text ++ b.lastBreak ++ b.lines.breaks,
       c)

/-- A block behind its first mark, in a context of the given indentation, and the cursor behind
it. -/
def block? (literal : Bool) (context : Int) (c : Cursor) : Option (List Char × Cursor) := do
  let (chomping, given, c) ← blockHeader? c
  let known := match given with
    | some n => (max context 0).toNat + n
    | none => 0
  let lines ← emptyLines? known c
  let indent := if known = 0 then max (max lines.widest (context + 1).toNat) 1 else known
  lines.cursor.read (blockStep literal chomping indent) ⟨[], [], false, lines⟩

end MetadataCatalog.Yaml
