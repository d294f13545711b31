import MetadataCatalog.Json.Value
import MetadataCatalog.Decimal.Literal

/-!
# Numbers in JSON texts

A numeral is an optional minus sign, a whole part without leading zeros, and optionally a fraction
and an exponent. Without fraction and exponent it is an integer as long as 64 bits hold it, minus
zero excepted; every other numeral is a double.

The double of a numeral is found in two rounded steps: as many leading digits as 64 bits hold are
made a double, which is then multiplied or divided by a power of ten.
-/

namespace MetadataCatalog.Json

/-- The parts of a numeral. The exponent is its sign and its digits. -/
structure Numeral where
  negative : Bool
  whole : List Char
  fraction : List Char
  exponent : Option (Bool × List Char)
  deriving DecidableEq, Repr

namespace Numeral

/-! ## §1 The grammar -/

/-- The exponent that follows a mantissa up to the end: nothing, or `e` and signed digits. -/
def exponent? : List Char → Option (Option (Bool × List Char))
  | [] => some none
  | c :: cs =>
    if c = 'e' ∨ c = 'E' then
      let (negative, digits) := Decimal.splitSign cs
      if digits ≠ [] ∧ digits.all Decimal.isDigit then some (some (negative, digits)) else none
    else none

/-- The fraction that follows a whole part and what comes after it. -/
def fraction? : List Char → Option (List Char × List Char)
  | '.' :: cs =>
    let digits := cs.takeWhile Decimal.isDigit
    if digits = [] then none else some (digits, cs.dropWhile Decimal.isDigit)
  | cs => some ([], cs)

/-- The parts of an unsigned numeral. -/
def unsigned? (negative : Bool) (cs : List Char) : Option Numeral :=
  let whole := cs.takeWhile Decimal.isDigit
  if whole = [] ∨ (whole.head? = some '0' ∧ whole.length ≠ 1) then none
  else do
    let (fraction, rest) ← fraction? (cs.dropWhile Decimal.isDigit)
    let exponent ← exponent? rest
    return { negative, whole, fraction, exponent }

/-- The parts of a numeral that is the whole text. -/
def ofChars? : List Char → Option Numeral
  | '-' :: cs => unsigned? true cs
  | cs => unsigned? false cs

/-! ## §2 The value -/

/-- The largest significand. -/
def largest : Nat := Nat.pow 2 64 - 1

/-- Appends leading digits to a significand as long as 64 bits hold it; gives the significand and
the number of digits appended. -/
def absorb (significand : Nat) : List Char → Nat × Nat
  | [] => (significand, 0)
  | c :: cs =>
    let next := 10 * significand + Decimal.digitValue c
    if largest < next then (significand, 0)
    else
      let (s, n) := absorb next cs
      (s, n + 1)

/-- The power of ten as a double. -/
def power (n : Nat) : Float :=
  Float.ofScientific 1 false n

/-- A double times a power of ten, or nothing if it is too large. -/
def scale? (x : Float) (exponent : Int) : Option Float :=
  if x == 0.0 then some x
  else if 308 < exponent then none
  else if 0 ≤ exponent then
    let y := x * power exponent.toNat
    if y.isInf then none else some y
  else if -308 ≤ exponent then some (x / power (-exponent).toNat)
  else scale? (x / power 308) (exponent + 308)
termination_by (-exponent).toNat

/-- The exponent as a number, or nothing if its digits exceed 31 bits. -/
def exponentValue? : Option (Bool × List Char) → Option Int
  | none => some 0
  | some (negative, digits) =>
    let n := Decimal.value digits
    if n < Nat.pow 2 31 then some (if negative then -(n : Int) else n) else none

/-- The double of a numeral, or nothing if it is too large. -/
def real? (n : Numeral) : Option Float :=
  let (w, wholeTaken) := absorb 0 n.whole
  let (s, fractionTaken) := absorb w n.fraction
  let magnitude :=
    match exponentValue? n.exponent with
    | some e => scale? (Float.ofNat s) (n.whole.length - wholeTaken - fractionTaken + e)
    | none =>
      if s ≠ 0 ∧ n.exponent.map Prod.fst = some false then none else some 0.0
  magnitude.map fun x => if n.negative then -x else x

/-- The value of a numeral, or nothing if it is too large. -/
def value? (n : Numeral) : Option Json :=
  if n.fraction = [] ∧ n.exponent = none then
    let v := Decimal.value n.whole
    if n.negative then
      if 0 < v ∧ v ≤ Nat.pow 2 63 then some (.integer (-v)) else n.real?.map .real
    else if v ≤ largest then some (.integer v) else n.real?.map .real
  else n.real?.map .real

end Numeral

end MetadataCatalog.Json
