import MetadataCatalog.Decimal.Digits
import MetadataCatalog.Decimal.Binary

/-!
# The fewest digits that read back

Among the decimals that round to a given double, the shortest ones have some number of digits, and
of these one is nearest to the double. It is found grid by grid: for the power of ten above the
value, then for one digit, two digits and so on up to seventeen, the two decimals next to the value
are tried in exact arithmetic, and the first grid with a decimal inside the rounding interval gives
the answer. Where the double lies halfway between the two, a `Tie` says which one is taken.
-/

namespace MetadataCatalog.Decimal

/-- The decimal `digits * 10 ^ exponent`. -/
structure Scaled where
  digits : Nat
  exponent : Int
  deriving DecidableEq, Repr

/-- The interval of reals that round to a double, in units of `1 / scale`: its ends, the value
itself, and whether the ends belong to it. -/
structure RoundingInterval where
  low : Nat
  middle : Nat
  high : Nat
  scale : Nat
  closed : Bool

/-- The reals nearest to `significand * 2 ^ exponent` among the doubles. Below a power of two the
doubles lie twice as dense; ties go to the even significand. -/
def RoundingInterval.of (significand : Nat) (exponent : Int) : RoundingInterval :=
  let unit := if 0 ≤ exponent then Nat.pow 2 exponent.toNat else 1
  let scale := if 0 ≤ exponent then 4 else 4 * Nat.pow 2 (-exponent).toNat
  let below := if significand = Nat.pow 2 52 ∧ -1074 < exponent then 1 else 2
  { low := (4 * significand - below) * unit
    middle := 4 * significand * unit
    high := (4 * significand + 2) * unit
    scale
    closed := significand % 2 = 0 }

/-- Whether `digits * 10 ^ exponent` lies in the interval. -/
def RoundingInterval.holds (i : RoundingInterval) (d : Scaled) : Bool :=
  let up := if 0 ≤ d.exponent then Nat.pow 10 d.exponent.toNat else 1
  let down := if 0 ≤ d.exponent then 1 else Nat.pow 10 (-d.exponent).toNat
  let x := d.digits * up * i.scale
  if i.closed then i.low * down ≤ x && x ≤ i.high * down
  else i.low * down < x && x < i.high * down

/-- How far `digits * 10 ^ exponent` is from the middle, in units common to all decimals of one
exponent. -/
def RoundingInterval.distance (i : RoundingInterval) (d : Scaled) : Nat :=
  let up := if 0 ≤ d.exponent then Nat.pow 10 d.exponent.toNat else 1
  let down := if 0 ≤ d.exponent then 1 else Nat.pow 10 (-d.exponent).toNat
  let x := d.digits * up * i.scale
  let m := i.middle * down
  if x ≤ m then m - x else x - m

/-- The exponent of the leading digit of `middle / scale`. -/
def RoundingInterval.magnitude (i : RoundingInterval) : Int :=
  (natChars (i.middle * Nat.pow 10 400 / i.scale)).length - 401

/-- Which of two decimals at one distance is taken: the even one, or the greater one. -/
inductive Tie where
  | toEven
  | up
  deriving DecidableEq, Repr

/-- The better of the two decimals of exponent `e` that enclose the middle, if one of them lies in
the interval. -/
def RoundingInterval.candidate? (tie : Tie) (i : RoundingInterval) (e : Int) : Option Scaled :=
  let floor :=
    if 0 ≤ e then i.middle / (i.scale * Nat.pow 10 e.toNat)
    else i.middle * Nat.pow 10 (-e).toNat / i.scale
  let lower : Scaled := ⟨floor, e⟩
  let upper : Scaled := ⟨floor + 1, e⟩
  match i.holds lower, i.holds upper with
  | true, false => some lower
  | false, true => some upper
  | false, false => none
  | true, true =>
    if i.distance lower < i.distance upper then some lower
    else if i.distance upper < i.distance lower then some upper
    else if tie = .toEven ∧ floor % 2 = 0 then some lower
    else some upper

/-- The shortest decimal that rounds to the positive double `significand * 2 ^ exponent`. -/
def shortest (tie : Tie) (significand : Nat) (exponent : Int) : Scaled :=
  let i := RoundingInterval.of significand exponent
  let top := i.magnitude
  let grids := (List.range 18).map fun (n : Nat) => top + 1 - n
  match grids.findSome? (i.candidate? tie) with
  | some d => d
  | none => ⟨0, 0⟩

end MetadataCatalog.Decimal
