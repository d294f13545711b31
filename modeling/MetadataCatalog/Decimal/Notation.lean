import MetadataCatalog.Decimal.Shortest

/-!
# Texts of doubles

A double is written with the fewest digits that read back. What remains to be decided is which way a
tie goes, where the point stands, when an exponent is used instead, and whether a whole number shows
a fraction. These decisions are one `Layout`; there are two of them:

* `Layout.plain` never uses an exponent, gives whole numbers no fraction, and takes the greater of
  two digits at one distance;
* `Layout.document` is the form of numbers in JSON documents: a fraction is always shown, an
  exponent with its sign stands for a point more than sixteen places after, or five or more places
  before, the first digit, and of two digits at one distance the even one is taken.
-/

namespace MetadataCatalog.Decimal

/-- The decisions of one way of writing doubles. `positional p` says whether a number whose point
stands `p` places after its first digit's left edge is written without an exponent. -/
structure Layout where
  positional : Int → Bool
  wholeEnding : List Char
  tie : Tie

namespace Layout

/-- Digits and a point, never an exponent. -/
def plain : Layout := ⟨fun _ => true, [], .up⟩

/-- The form of numbers in JSON documents. -/
def document : Layout := ⟨fun p => -5 < p && p ≤ 16, ['.', '0'], .toEven⟩

/-- Writes the digits with the point `p` places after their left edge. -/
def point (layout : Layout) (digits : List Char) (p : Int) : List Char :=
  if p ≤ 0 then ['0', '.'] ++ List.replicate (-p).toNat '0' ++ digits
  else if p.toNat < digits.length then
    digits.take p.toNat ++ ['.'] ++ digits.drop p.toNat
  else digits ++ List.replicate (p.toNat - digits.length) '0' ++ layout.wholeEnding

/-- Writes the digits with the point after the first of them and an exponent. -/
def scientific (digits : List Char) (e : Int) : List Char :=
  digits.take 1 ++ (if digits.length ≤ 1 then [] else '.' :: digits.drop 1) ++ ['e'] ++
    (if 0 ≤ e then ['+'] else []) ++ intChars e

/-- The text of a positive decimal. -/
def scaled (layout : Layout) (d : Scaled) : List Char :=
  let digits := natChars d.digits
  let p := digits.length + d.exponent
  if layout.positional p then layout.point digits p else scientific digits (p - 1)

/-- The text of a double. -/
def write (layout : Layout) (x : Float) : List Char :=
  match Binary.ofFloat x with
  | .notANumber => "NaN".toList
  | .infinite negative => (if negative then ['-'] else []) ++ "inf".toList
  | .finite negative significand exponent =>
    let sign := if negative then ['-'] else []
    if significand = 0 then sign ++ ['0'] ++ layout.wholeEnding
    else sign ++ layout.scaled (shortest layout.tie significand exponent)

end Layout

end MetadataCatalog.Decimal
