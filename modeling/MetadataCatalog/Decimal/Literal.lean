import MetadataCatalog.Decimal.Digits
import MetadataCatalog.Text.Pieces

/-!
# Reading decimal literals

A literal has an optional sign and then either one of the words `inf`, `infinity` and `nan` in any
case, or digits with at most one point and an optional exponent, where at least one digit stands
before the exponent. No blanks and no other characters are allowed. The value is the double nearest
to the literal.
-/

namespace MetadataCatalog.Decimal

/-- The double nearest to `digits * 10 ^ exponent`; far out of range it is infinite or zero. -/
def nearest (digits : Nat) (exponent : Int) : Float :=
  let size : Int := (natChars digits).length + exponent
  if digits = 0 then 0.0
  else if 310 < size then 1.0 / 0.0
  else if size < -330 then 0.0
  else if 0 ≤ exponent then Float.ofScientific digits false exponent.toNat
  else Float.ofScientific digits true (-exponent).toNat

/-- An optional sign and the rest. -/
def splitSign : List Char → Bool × List Char
  | '-' :: cs => (true, cs)
  | '+' :: cs => (false, cs)
  | cs => (false, cs)

/-- The exponent part: nothing, or `e`, an optional sign and digits up to the end. -/
def exponent? : List Char → Option Int
  | [] => some 0
  | c :: cs =>
    if c = 'e' ∨ c = 'E' then
      let (negative, digits) := splitSign cs
      if digits ≠ [] ∧ digits.all isDigit then
        some (if negative then -(value digits : Int) else value digits)
      else none
    else none

/-- The digits before the exponent: whole part, fraction and what follows them. -/
def splitPoint (cs : List Char) : List Char × List Char × List Char :=
  let whole := cs.takeWhile isDigit
  match cs.dropWhile isDigit with
  | '.' :: rest => (whole, rest.takeWhile isDigit, rest.dropWhile isDigit)
  | rest => (whole, [], rest)

/-- The value of an unsigned literal. -/
def magnitude? (cs : List Char) : Option Float :=
  let word := Text.lowerAscii (String.ofList cs)
  if word = "inf" ∨ word = "infinity" then some (1.0 / 0.0)
  else if word = "nan" then some (0.0 / 0.0)
  else
    let (whole, fraction, rest) := splitPoint cs
    if whole = [] ∧ fraction = [] then none
    else (exponent? rest).map fun e => nearest (value (whole ++ fraction)) (e - fraction.length)

/-- The value of a literal, if the text is one. -/
def float? (s : String) : Option Float :=
  let (negative, cs) := splitSign s.toList
  (magnitude? cs).map fun x => if negative then -x else x

end MetadataCatalog.Decimal
