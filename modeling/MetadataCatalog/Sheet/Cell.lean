import MetadataCatalog.Text.Blank
import MetadataCatalog.Decimal.Notation

/-!
# Cells

A cell of a sheet is empty or holds a trimmed, non-empty text. Spreadsheets hold typed data;
`Cell.ofDatum` reduces each datum to the text a reader of the sheet sees: whole numbers have no
fraction, errors are empty, and texts are trimmed.
-/

namespace MetadataCatalog

/-- A cell: empty, or a text. -/
abbrev Cell := Option String

/-- What a spreadsheet can hold at one position. A `moment` is a serial date number and a `stamp`
a date, time or duration written out. -/
inductive Datum where
  | empty
  | text (s : String)
  | integer (n : Int)
  | number (x : Float)
  | boolean (b : Bool)
  | error
  | moment (serial : Float)
  | stamp (s : String)

namespace Cell

/-- The cell of a text: empty when the text is blank. -/
def ofText (s : String) : Cell :=
  let trimmed := Text.trim s
  if trimmed = "" then none else some trimmed

/-- The text of a number: a whole number below 10^15 in size has only digits, every other number
its shortest decimal. -/
def numberText (x : Float) : String :=
  let shortest := String.ofList (Decimal.Layout.plain.write x)
  match Decimal.Binary.ofFloat x with
  | .finite negative significand exponent =>
    match Decimal.Binary.whole? significand exponent with
    | some n =>
      if n < Nat.pow 10 15 then Decimal.intText (if negative then -(n : Int) else n) else shortest
    | none => shortest
  | _ => shortest

/-- The cell of a datum. -/
def ofDatum : Datum → Cell
  | .empty => none
  | .text s => ofText s
  | .integer n => some (Decimal.intText n)
  | .number x => some (numberText x)
  | .boolean b => some (if b then "true" else "false")
  | .error => none
  | .moment serial => ofText (String.ofList (Decimal.Layout.plain.write serial))
  | .stamp s => ofText s

end Cell

end MetadataCatalog
