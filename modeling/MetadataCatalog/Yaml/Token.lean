import MetadataCatalog.Yaml.Scalar

/-!
# Tokens of indented texts

A text is a row of tokens: marks, names, scalars, and tokens without characters that say where a
block begins and ends. A block begins where something stands further right than what is around it,
and ends where the text returns to the left.

That a scalar is a key shows only when a colon follows it on its line. So wherever a key may begin,
the place is remembered as a `Candidate`, and the colon puts the token of the key, and perhaps the
beginning of a block, in front of it after the fact.
-/

namespace MetadataCatalog.Yaml

/-! ## §1 Tokens -/

/-- A token of an indented text. -/
inductive Token where
  | version (major minor : Nat)
  | tagHandle (handle start : String)
  | documentStart
  | documentEnd
  | blockSequence
  | blockMapping
  | blockEnd
  | openList
  | closeList
  | openMap
  | closeMap
  | entry
  | comma
  | key
  | value
  | alias (name : String)
  | anchor (name : String)
  | tag (handle suffix : String)
  | scalar (plain : Bool) (text : String)
  deriving DecidableEq, Repr

/-- A place where a key may begin: the number of tokens before it, where it stands, and whether
nothing but a key may stand there. -/
structure Candidate where
  before : Nat
  offset : Nat
  line : Nat
  column : Nat
  required : Bool

/-- The reader of tokens: the cursor, the tokens so far in reverse, the column of the present block
and of the blocks around it, the candidates of the present and the outer brackets, and whether a
key may begin here. -/
structure Lexer where
  cursor : Cursor
  tokens : List Token
  indent : Int
  outerIndents : List Int
  candidate : Option Candidate
  outerCandidates : List (Option Candidate)
  keyAllowed : Bool

namespace Lexer

/-- At the beginning of a text. -/
def start (cs : List Char) : Lexer :=
  { cursor := .start cs, tokens := [], indent := -1, outerIndents := [], candidate := none
    outerCandidates := [], keyAllowed := true }

/-- Whether the cursor is between brackets. -/
def inFlow (s : Lexer) : Bool :=
  !s.outerCandidates.isEmpty

/-- One more token. -/
def add (s : Lexer) (token : Token) : Lexer :=
  { s with tokens := token :: s.tokens }

/-- One more token, behind which the cursor stands. -/
def addAt (s : Lexer) (token : Token) (cursor : Cursor) : Lexer :=
  { s with tokens := token :: s.tokens, cursor }

/-- A token put behind the first `before` tokens. -/
def insert (s : Lexer) (before : Nat) (token : Token) : Lexer :=
  let after := s.tokens.length - before
  { s with tokens := s.tokens.take after ++ token :: s.tokens.drop after }

/-! ## §2 Blocks and keys -/

/-- Begins a block at a column that is further right than the present block: its token is put
behind the first `before` tokens. -/
def beginBlock (s : Lexer) (column before : Nat) (token : Token) : Lexer :=
  if !s.inFlow ∧ s.indent < column then
    { s with indent := column, outerIndents := s.indent :: s.outerIndents }.insert before token
  else s

/-- Ends the blocks that are further right than a column. -/
def endBlocks (s : Lexer) (column : Int) : Lexer :=
  if s.inFlow then s
  else
    let all := s.indent :: s.outerIndents
    let ended := all.takeWhile (column < ·)
    { s with
      tokens := List.replicate ended.length .blockEnd ++ s.tokens
      indent := (all.drop ended.length).headD (-1)
      outerIndents := (all.drop ended.length).drop 1 }

/-- Gives up the candidate, which must not be a required one. -/
def dropCandidate? (s : Lexer) : Option Lexer :=
  match s.candidate with
  | some c => if c.required then none else some { s with candidate := none }
  | none => some s

/-- The candidate for a key at the cursor, which is required where the present block goes on. -/
def candidateHere (s : Lexer) : Candidate :=
  { before := s.tokens.length, offset := s.cursor.offset, line := s.cursor.line
    column := s.cursor.column, required := !s.inFlow && s.indent == s.cursor.column }

/-- Remembers that a key may begin at the cursor. -/
def saveCandidate? (s : Lexer) : Option Lexer :=
  if s.keyAllowed then
    s.dropCandidate?.map fun s => { s with candidate := some s.candidateHere }
  else some s

/-- The longest key that needs no mark of its own, in bytes. -/
def keyLimit : Nat := 1024

/-- Whether a candidate is too far back: on another line, or further than a key can be long. -/
def isStale (c : Cursor) (candidate : Candidate) : Bool :=
  candidate.line < c.line || candidate.offset + keyLimit < c.offset

/-- Gives up the candidates that are too far back. -/
def dropStale? (s : Lexer) : Option Lexer := do
  let check (candidate : Option Candidate) : Option (Option Candidate) :=
    match candidate with
    | some c =>
      if isStale s.cursor c then (if c.required then none else some none) else some (some c)
    | none => some none
  let candidate ← check s.candidate
  let outerCandidates ← s.outerCandidates.mapM check
  some { s with candidate, outerCandidates }

/-! ## §3 Single tokens -/

/-- A tag handle: an exclamation mark, and perhaps a name and another exclamation mark. -/
def tagHandle? (c : Cursor) : Option (List Char × Cursor) :=
  if c.here ≠ '!' then none
  else
    let name := (c.skip 1).span isNameChar
    let c := (c.skip 1).skip name.length
    some (if c.here = '!' then ('!' :: name ++ ['!'], c.skip 1) else ('!' :: name, c))

/-- A unit of an address: a character, or an octet that a percent sign and two hexadecimal digits
stand for. -/
inductive AddressUnit where
  | plain (c : Char)
  | octet (byte : UInt8)

/-- The units of an address. -/
def addressUnits? : List Char → Option (List AddressUnit)
  | [] => some []
  | '%' :: a :: b :: cs => do
    let high ← Text.hexValue? a
    let low ← Text.hexValue? b
    let more ← addressUnits? cs
    some (.octet (16 * high + low).toUInt8 :: more)
  | c :: cs => if c = '%' then none else (addressUnits? cs).map (.plain c :: ·)

/-- How many octets follow the first octet of a character. -/
def following? (first : UInt8) : Option Nat :=
  if first < 0x80 then some 0
  else if first < 0xC0 then none
  else if first < 0xE0 then some 1
  else if first < 0xF0 then some 2
  else if first < 0xF8 then some 3
  else none

/-- The character that octets make up, or the replacement character if there is none. -/
def characterOf (octets : List UInt8) : Char :=
  match (String.fromUTF8? ⟨octets.toArray⟩).map String.toList with
  | some [c] => c
  | _ => Char.ofNat 0xFFFD

/-- Characters that have been read, and the octets of the next one with the number of those that are
still to come. -/
structure AddressText where
  read : List Char
  octets : List UInt8
  missing : Nat

/-- One more unit. -/
def AddressText.step (t : AddressText) : AddressUnit → Option AddressText
  | .plain c => if t.missing = 0 then some { t with read := t.read ++ [c] } else none
  | .octet byte =>
    let octets := t.octets ++ [byte]
    let settle (missing : Nat) : AddressText :=
      if missing = 0 then ⟨t.read ++ [characterOf octets], [], 0⟩ else ⟨t.read, octets, missing⟩
    if t.missing = 0 then (following? byte).map settle
    else if byte / 64 = 2 then some (settle (t.missing - 1))
    else none

/-- The characters of an address. -/
def addressChars? (written : List Char) : Option (List Char) := do
  let units ← addressUnits? written
  let t ← units.foldlM AddressText.step ⟨[], [], 0⟩
  if t.missing = 0 then some t.read else none

/-- The characters that stand in an address beside letters and digits. -/
def isAddressMark (c : Char) : Bool :=
  ";/?:@&=+$.%!~*'()".toList.contains c

/-- An address behind a handle, whose name belongs to it; some marks are allowed only where nothing
else can follow. What an address says ends at a NUL. -/
def address? (apart : Bool) (handle : List Char) (c : Cursor) : Option (List Char × Cursor) := do
  let written := c.span fun d =>
    isNameChar d || isAddressMark d || (apart && (d == ',' || d == '[' || d == ']'))
  let text ← addressChars? written
  if written = [] ∧ handle = [] then none
  else some (handle.drop 1 ++ text.takeWhile (· ≠ nul), c.skip written.length)

/-- The version that a directive gives. -/
def version? (c : Cursor) : Option (Token × Cursor) := do
  let number (cs : List Char) : Nat := cs.foldl (fun n d => 10 * n + (d.toNat - 48)) 0
  let major := c.span Char.isDigit
  let c := c.skip major.length
  let minor := (c.skip 1).span Char.isDigit
  if major = [] ∨ 9 < major.length ∨ c.here ≠ '.' ∨ minor = [] ∨ 9 < minor.length then none
  else some (.version (number major) (number minor), (c.skip 1).skip minor.length)

/-- The meaning that a directive gives to a tag handle. -/
def tagMeaning? (c : Cursor) : Option (Token × Cursor) := do
  let (handle, c) ← tagHandle? c
  if (handle ≠ ['!'] ∧ (handle.length = 1 ∨ handle.getLast? ≠ some '!')) ∨ !isGap c.here then none
  else
    let (start, c) ← address? true [] (c.skipWhile isGap)
    if isSpacing c.here then some (.tagHandle (String.ofList handle) (String.ofList start), c)
    else none

/-- Directives: the version, or the meaning of a tag handle. -/
def directive? (c : Cursor) : Option (Token × Cursor) := do
  let name := (c.skip 1).span isNameChar
  let c := (c.skip 1).skip name.length
  if !isSpacing c.here then none
  else
    let c := c.skipWhile isGap
    let (token, c) ←
      if name = "YAML".toList then version? c
      else if name = "TAG".toList then tagMeaning? c
      else none
    let c ← c.skipComment?
    some (token, c)

/-- A tag: an address between angle brackets, or a handle and a suffix. -/
def tag? (inFlow : Bool) (c : Cursor) : Option (Token × Cursor) := do
  let (handle, suffix, c) ←
    if c.look 1 = '<' then do
      let (suffix, c) ← address? true [] (c.skip 2)
      if c.here = '>' then some ([], suffix, c.skip 1) else none
    else do
      let (handle, after) ← tagHandle? c
      if 1 < handle.length ∧ handle.getLast? = some '!' then
        let (suffix, c) ← address? false [] after
        some (handle, suffix, c)
      else
        let (suffix, c) ← address? false handle after
        some (if suffix = [] then ([], ['!'], c) else (['!'], suffix, c))
  if isSpacing c.here ∨ (inFlow ∧ c.here = ',') then
    some (.tag (String.ofList handle) (String.ofList suffix), c)
  else none

/-- The name of an anchor or alias behind its mark. -/
def anchorName? (c : Cursor) : Option (String × Cursor) :=
  let name := (c.skip 1).span isNameChar
  let c := (c.skip 1).skip name.length
  if name ≠ [] ∧ (isSpacing c.here ∨ "?:,]\x7d%@`".toList.contains c.here) then
    some (String.ofList name, c)
  else none

/-- The characters that cannot begin a plain scalar. -/
def isIndicator (c : Char) : Bool :=
  "-?:,[]\x7b\x7d#&*!|>'\"%@`".toList.contains c

/-- Whether a plain scalar begins at the cursor. -/
def beginsPlain (inFlow : Bool) (c : Cursor) : Bool :=
  !(isSpacing c.here || isIndicator c.here) || (c.here == '-' && !isGap (c.look 1)) ||
    (!inFlow && (c.here == '?' || c.here == ':') && !isSpacing (c.look 1))

/-! ## §4 The next token -/

/-- One step over the gaps, comments and line breaks before a token. A byte order mark may begin a
line, and then takes the first column of it. A tab counts as a gap where no key may begin; a line
break allows a key. -/
def gapStep (s : Lexer) : Step Lexer Lexer :=
  let c := s.cursor
  let c := if c.column = 0 ∧ c.here = byteOrderMark then c.skip 1 else c
  let c := c.skipWhile fun d => d == ' ' || ((s.inFlow || !s.keyAllowed) && d == '\t')
  let c := if c.here = '#' then c.skipWhile (!isLineEnd ·) else c
  if isBreak c.here then
    .next { s with cursor := c.skipBreak, keyAllowed := s.keyAllowed || !s.inFlow }
  else .done { s with cursor := c }

/-- The reader at the next token. -/
def toToken? (s : Lexer) : Option Lexer :=
  s.cursor.read gapStep s

/-- A mark that begins or ends a document. -/
def document? (s : Lexer) (token : Token) (next : Cursor) : Option Lexer := do
  let s ← (s.endBlocks (-1)).dropCandidate?
  some ({ s with keyAllowed := false }.addAt token next)

/-- An opening bracket. -/
def openBracket? (s : Lexer) (token : Token) : Option Lexer := do
  let s ← s.saveCandidate?
  let outerCandidates := s.candidate :: s.outerCandidates
  some ({ s with candidate := none, outerCandidates, keyAllowed := true }.addAt token
    (s.cursor.skip 1))

/-- A closing bracket. -/
def closeBracket? (s : Lexer) (token : Token) : Option Lexer := do
  let s ← s.dropCandidate?
  let s := match s.outerCandidates with
    | outer :: rest => { s with candidate := outer, outerCandidates := rest }
    | [] => s
  some ({ s with keyAllowed := false }.addAt token (s.cursor.skip 1))

/-- A comma between entries. -/
def comma? (s : Lexer) : Option Lexer := do
  let s ← s.dropCandidate?
  some ({ s with keyAllowed := true }.addAt .comma (s.cursor.skip 1))

/-- The dash before an item, or the question mark before a key: it may begin a block. -/
def entryMark? (s : Lexer) (block token : Token) (keyAfter : Bool) : Option Lexer := do
  if !s.inFlow ∧ !s.keyAllowed then none
  let s ← (s.beginBlock s.cursor.column s.tokens.length block).dropCandidate?
  some ({ s with keyAllowed := keyAfter }.addAt token (s.cursor.skip 1))

/-- The colon before a value: it makes a key of the candidate, if there is one. -/
def value? (s : Lexer) : Option Lexer :=
  match s.candidate with
  | some c =>
    let s := (s.insert c.before .key).beginBlock c.column c.before .blockMapping
    some ({ s with candidate := none, keyAllowed := false }.addAt .value (s.cursor.skip 1))
  | none =>
    if !s.inFlow ∧ !s.keyAllowed then none
    else
      let s := s.beginBlock s.cursor.column s.tokens.length .blockMapping
      some ({ s with keyAllowed := !s.inFlow }.addAt .value (s.cursor.skip 1))

/-- A token that can be a key or begin one. -/
def keyToken? (s : Lexer) (read : Cursor → Option (Token × Cursor)) : Option Lexer := do
  let s ← s.saveCandidate?
  let (token, next) ← read s.cursor
  some ({ s with keyAllowed := false }.addAt token next)

/-- A plain scalar; behind a line break a key may begin again. -/
def plainToken? (s : Lexer) : Option Lexer := do
  let s ← s.saveCandidate?
  let (text, broken, next) ← plain? s.inFlow (s.indent + 1).toNat s.cursor
  some ({ s with keyAllowed := broken }.addAt (.scalar true (String.ofList text)) next)

/-- A block scalar. -/
def blockToken? (s : Lexer) (literal : Bool) : Option Lexer := do
  let s ← s.dropCandidate?
  let (text, next) ← block? literal s.indent (s.cursor.skip 1)
  some ({ s with keyAllowed := true }.addAt (.scalar false (String.ofList text)) next)

/-- The token at the cursor, which is not at the end. -/
def token? (s : Lexer) : Option Lexer :=
  let c := s.cursor
  if c.column = 0 ∧ c.here = '%' then do
    let s ← (s.endBlocks (-1)).dropCandidate?
    let (token, next) ← directive? s.cursor
    some ({ s with keyAllowed := false }.addAt token next)
  else if c.atMarker then
    s.document? (if c.here = '-' then .documentStart else .documentEnd) (c.skip 3)
  else match c.here with
    | '[' => s.openBracket? .openList
    | '{' => s.openBracket? .openMap
    | ']' => s.closeBracket? .closeList
    | '}' => s.closeBracket? .closeMap
    | ',' => s.comma?
    | '*' => s.keyToken? fun c => (anchorName? c).map fun (name, next) => (.alias name, next)
    | '&' => s.keyToken? fun c => (anchorName? c).map fun (name, next) => (.anchor name, next)
    | '!' => s.keyToken? (tag? s.inFlow)
    | '\'' => s.keyToken? (quotedToken? true)
    | '"' => s.keyToken? (quotedToken? false)
    | d =>
      if d = '-' ∧ isSpacing (c.look 1) then s.entryMark? .blockSequence .entry true
      else if d = '?' ∧ (s.inFlow ∨ isSpacing (c.look 1)) then
        s.entryMark? .blockMapping .key (!s.inFlow)
      else if d = ':' ∧ (s.inFlow ∨ isSpacing (c.look 1)) then s.value?
      else if d = '|' ∧ !s.inFlow then s.blockToken? true
      else if d = '>' ∧ !s.inFlow then s.blockToken? false
      else if beginsPlain s.inFlow c then s.plainToken?
      else none
where
  /-- A quoted scalar. -/
  quotedToken? (single : Bool) (c : Cursor) : Option (Token × Cursor) :=
    (quoted? single (c.skip 1)).map fun (text, next) => (.scalar false (String.ofList text), next)

/-- One step: the next token, or all tokens at the end of the text. -/
def step (s : Lexer) : Step Lexer (List Token) :=
  match s.toToken?.bind dropStale? with
  | none => .fail
  | some s =>
    if s.cursor.here = nul then
      match (s.endBlocks (-1)).dropCandidate? with
      | some s => .done s.tokens.reverse
      | none => .fail
    else match (s.endBlocks s.cursor.column).token? with
      | some s => .next s
      | none => .fail

end Lexer

/-- The tokens of a text, if it can be read. -/
def tokens? (text : String) : Option (List Token) :=
  let cs := text.toList
  if cs.all isAllowed then (Cursor.start cs).read Lexer.step (Lexer.start cs) else none

end MetadataCatalog.Yaml
