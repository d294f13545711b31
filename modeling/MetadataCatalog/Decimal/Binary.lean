/-!
# Doubles as exact binary fractions

A double is not a number, infinite, or a sign with `significand * 2 ^ exponent`, all read off its
64 bits. Whether such a value is whole, and which whole number it is, is natural-number arithmetic.
-/

namespace MetadataCatalog.Decimal

/-- What the 64 bits of a double stand for. -/
inductive Binary where
  | notANumber
  | infinite (negative : Bool)
  | finite (negative : Bool) (significand : Nat) (exponent : Int)
  deriving DecidableEq, Repr

namespace Binary

/-- Splits the bit pattern into sign, biased exponent and fraction. -/
def ofBits (bits : UInt64) : Binary :=
  let negative := bits >>> 63 == 1
  let biased := ((bits >>> 52) &&& 0x7ff).toNat
  let fraction := (bits &&& 0xfffffffffffff).toNat
  if biased = 2047 then
    if fraction = 0 then .infinite negative else .notANumber
  else if biased = 0 then .finite negative fraction (-1074)
  else .finite negative (fraction + Nat.pow 2 52) (biased - 1075)

/-- The exact value of a double. -/
def ofFloat (x : Float) : Binary :=
  ofBits x.toBits

/-- The magnitude `significand * 2 ^ exponent`, if it is a whole number. -/
def whole? (significand : Nat) (exponent : Int) : Option Nat :=
  if 0 ≤ exponent then some (significand * Nat.pow 2 exponent.toNat)
  else
    let unit := Nat.pow 2 (-exponent).toNat
    if significand % unit = 0 then some (significand / unit) else none

end Binary

end MetadataCatalog.Decimal
