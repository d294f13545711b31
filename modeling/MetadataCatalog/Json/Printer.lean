import MetadataCatalog.Json.Value
import MetadataCatalog.Decimal.Notation
import MetadataCatalog.Text.Hex

/-!
# Writing JSON

One printer serves the compact form and the indented forms: a `Style` says what stands before each
item and closing bracket, by depth, and what stands after the name of an entry. Empty lists and
objects have nothing between their brackets. In a text the quote, the backslash and the controls
below the space are escaped, and everything else stands as it is.
-/

namespace MetadataCatalog.Json

/-! ## §1 Texts -/

/-- A character as it stands between the quotes. -/
def escapeChar (c : Char) : List Char :=
  if c = '"' then ['\\', '"']
  else if c = '\\' then ['\\', '\\']
  else if c.toNat = 8 then ['\\', 'b']
  else if c.toNat = 9 then ['\\', 't']
  else if c.toNat = 10 then ['\\', 'n']
  else if c.toNat = 12 then ['\\', 'f']
  else if c.toNat = 13 then ['\\', 'r']
  else if c.toNat < 32 then
    ['\\', 'u', '0', '0', Text.hexDigit (c.toNat / 16), Text.hexDigit (c.toNat % 16)]
  else [c]

/-- A text between quotes. -/
def quoted (s : String) : List Char :=
  '"' :: s.toList.flatMap escapeChar ++ ['"']

/-! ## §2 Styles -/

/-- What a form of JSON puts between the brackets, commas and values. -/
structure Style where
  newline : Nat → List Char
  afterColon : List Char

/-- Nothing between the parts. -/
def Style.compact : Style := ⟨fun _ => [], []⟩

/-- Each item on a line of its own, indented by `step` spaces for each level. -/
def Style.indented (step : Nat) : Style :=
  ⟨fun depth => '\n' :: List.replicate (step * depth) ' ', [' ']⟩

/-! ## §3 Values -/

mutual

/-- The text of a value that stands at the given depth. -/
def write (style : Style) (depth : Nat) : Json → List Char
  | .null => "null".toList
  | .boolean true => "true".toList
  | .boolean false => "false".toList
  | .integer n => Decimal.intChars n
  | .real x => Decimal.Layout.document.write x
  | .text s => quoted s
  | .list [] => ['[', ']']
  | .list (item :: rest) =>
    '[' :: (style.newline (depth + 1) ++ write style (depth + 1) item) ++
      writeItems style (depth + 1) rest ++ style.newline depth ++ [']']
  | .object [] => ['{', '}']
  | .object ((name, value) :: rest) =>
    '{' ::
      (style.newline (depth + 1) ++ quoted name ++ [':'] ++ style.afterColon ++
        write style (depth + 1) value) ++
      writeEntries style (depth + 1) rest ++ style.newline depth ++ ['}']

/-- The items of a list after the first one, each after a comma. -/
def writeItems (style : Style) (depth : Nat) : List Json → List Char
  | [] => []
  | item :: rest =>
    ',' :: (style.newline depth ++ write style depth item) ++ writeItems style depth rest

/-- The entries of an object after the first one, each after a comma. -/
def writeEntries (style : Style) (depth : Nat) : List (String × Json) → List Char
  | [] => []
  | (name, value) :: rest =>
    ',' :: (style.newline depth ++ quoted name ++ [':'] ++ style.afterColon ++
      write style depth value) ++ writeEntries style depth rest

end

/-- The compact text of a value. -/
def compact (value : Json) : String :=
  String.ofList (write Style.compact 0 value)

/-- The text of a value with `step` spaces of indentation for each level. -/
def indented (step : Nat) (value : Json) : String :=
  String.ofList (write (Style.indented step) 0 value)

end MetadataCatalog.Json
