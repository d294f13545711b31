/-!
# Decimal digits of natural numbers and integers

The usual decimal text of a number: no leading zeros, `0` for zero, a minus sign before a negative
integer. `value` reads a row of digit characters back.
-/

namespace MetadataCatalog.Decimal

/-- The character of a digit below ten. -/
def digitChar (d : Nat) : Char :=
  Char.ofNat (48 + d % 10)

/-- The decimal digits of a number, the most significant one first. -/
def natChars (n : Nat) : List Char :=
  if n < 10 then [digitChar n] else natChars (n / 10) ++ [digitChar (n % 10)]
decreasing_by omega

/-- The decimal text of an integer. -/
def intChars : Int → List Char
  | .ofNat n => natChars n
  | .negSucc n => '-' :: natChars (n + 1)

/-- The characters `0` to `9`. -/
def isDigit (c : Char) : Bool :=
  48 ≤ c.toNat && c.toNat ≤ 57

/-- The number that a digit character stands for. -/
def digitValue (c : Char) : Nat :=
  c.toNat - 48

/-- The number that a row of digit characters stands for. -/
def value (cs : List Char) : Nat :=
  cs.foldl (fun n c => 10 * n + digitValue c) 0

/-- The decimal text of a natural number. -/
def natText (n : Nat) : String :=
  String.ofList (natChars n)

/-- The decimal text of an integer. -/
def intText (n : Int) : String :=
  String.ofList (intChars n)

/-- Every number has a digit. -/
theorem natChars_ne_nil (n : Nat) : natChars n ≠ [] := by
  unfold natChars
  split <;> simp

/-- A digit character stands for its digit. -/
theorem digitValue_digitChar {d : Nat} (h : d < 10) : digitValue (digitChar d) = d := by
  have hd : d = 0 ∨ d = 1 ∨ d = 2 ∨ d = 3 ∨ d = 4 ∨ d = 5 ∨ d = 6 ∨ d = 7 ∨ d = 8 ∨ d = 9 := by
    omega
  rcases hd with h | h | h | h | h | h | h | h | h | h <;> subst h <;> decide

/-- The digits of a number stand for that number. -/
theorem value_natChars (n : Nat) : value (natChars n) = n := by
  induction n using natChars.induct with
  | case1 n h =>
    rw [natChars, if_pos h]
    simp [value, digitValue_digitChar h]
  | case2 n h ih =>
    rw [natChars, if_neg h]
    simp only [value, List.foldl_append, List.foldl_cons, List.foldl_nil] at ih ⊢
    rw [ih, digitValue_digitChar (Nat.mod_lt _ (by omega))]
    omega

end MetadataCatalog.Decimal
