import MetadataCatalog.Markup.Event
import MetadataCatalog.Fault
import MetadataCatalog.Text.Blank
import MetadataCatalog.Text.Hex

/-!
# Texts of documents

The body of a document is marked-up: texts stand in elements `w:t`, the empty elements `w:tab`,
`w:br` and `w:cr` stand for a tab and for line breaks, and an element `w:p` ends a paragraph. The
text of the document is that of its paragraphs, each on a line, without blanks at its ends.
-/

namespace MetadataCatalog.DocumentText

/-! ## §1 Entities -/

/-- The characters that have a name. -/
def named? (name : List Char) : Option Char :=
  match String.ofList name with
  | "lt" => some '<'
  | "gt" => some '>'
  | "amp" => some '&'
  | "apos" => some '\''
  | "quot" => some '"'
  | _ => none

/-- The number that digits of a base stand for, at most `limit` of them. -/
def number? (base limit : Nat) (digits : List Char) : Option Nat :=
  if limit < digits.length then none
  else digits.foldlM
    (fun n c => do
      let d ← Text.hexValue? c
      if d < base then some (base * n + d) else none)
    0

/-- The character of a code point, other than NUL. -/
def character? (code : Nat) : Option Char :=
  if code ≠ 0 ∧ code.isValidChar then some (Char.ofNat code) else none

/-- The character that an entity stands for: a name, or a number in decimal or hexadecimal. -/
def entity? : List Char → Option Char
  | '#' :: 'x' :: digits => (number? 16 6 digits).bind character?
  | '#' :: digits => (number? 10 7 digits).bind character?
  | name => named? name

/-- A text with its entities replaced; every ampersand begins one, and a semicolon ends it. -/
def unescape? : List Char → Option (List Char)
  | [] => some []
  | c :: cs =>
    if c = '&' then
      match cs.dropWhile fun d => d ≠ '&' ∧ d ≠ ';' with
      | ';' :: rest => do
        let d ← entity? (cs.takeWhile fun d => d ≠ '&' ∧ d ≠ ';')
        let more ← unescape? (cs.drop ((cs.takeWhile fun d => d ≠ '&' ∧ d ≠ ';').length + 1))
        some (d :: more)
      | _ => none
    else (unescape? cs).map (c :: ·)
termination_by cs => cs.length
decreasing_by
  all_goals simp only [List.length_drop, List.length_cons]; omega

/-! ## §2 Paragraphs -/

/-- What has been read: whether a text element is open, the present paragraph, and those before
it. -/
structure State where
  inText : Bool
  current : List Char
  paragraphs : List (List Char)
  deriving DecidableEq, Repr

/-- Before the first event. -/
def State.start : State := ⟨false, [], []⟩

/-- More text in the present paragraph. -/
def State.write (s : State) (cs : List Char) : State :=
  { s with current := s.current ++ cs }

/-- One event. -/
def step (s : State) : Markup.Event → Option State
  | .opening "w:t" => some { s with inText := true }
  | .closing "w:t" => some { s with inText := false }
  | .text written => if s.inText then (unescape? written).map s.write else some s
  | .empty "w:tab" => some (s.write ['\t'])
  | .empty "w:br" => some (s.write ['\n'])
  | .empty "w:cr" => some (s.write ['\n'])
  | .closing "w:p" => some { s with current := [], paragraphs := s.paragraphs ++ [s.current] }
  | _ => some s

/-- The paragraphs when the document ends here. -/
def State.finish (s : State) : List (List Char) :=
  if s.current = [] then s.paragraphs else s.paragraphs ++ [s.current]

/-- The paragraphs of a marked-up document body. -/
def paragraphs? (body : List Char) : Option (List (List Char)) := do
  let events ← Markup.events? body
  let last ← events.foldlM step .start
  some last.finish

/-- The text of a marked-up document body. -/
def ofBody (body : String) : Except Fault String :=
  match paragraphs? body.toList with
  | some paragraphs =>
    .ok (String.ofList (Text.trimChars (List.intercalate ['\n'] paragraphs)))
  | none => .error .document

end MetadataCatalog.DocumentText
