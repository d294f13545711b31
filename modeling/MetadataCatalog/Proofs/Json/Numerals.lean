import MetadataCatalog.Json.Numeral
import Mathlib.Data.List.TakeWhile

/-!
# Numerals of integers

The decimal text of an integer is a numeral without fraction and exponent. As long as 64 bits hold
the integer, signed or unsigned, the value of the numeral is that integer
(`Numeral.value?_intChars`).
-/

namespace MetadataCatalog

/-! ## §1 Digits -/

namespace Decimal

theorem isDigit_digitChar (d : Nat) : isDigit (digitChar d) = true := by
  have all : ∀ k : Fin 10, isDigit (digitChar k) = true := by decide
  have hmod := all ⟨d % 10, Nat.mod_lt d (by decide)⟩
  rw [digitChar] at hmod ⊢
  rwa [Nat.mod_mod] at hmod

theorem isDigit_of_mem_natChars {n : Nat} {c : Char} (h : c ∈ natChars n) : isDigit c = true := by
  induction n using natChars.induct with
  | case1 n hn =>
    rw [natChars, if_pos hn, List.mem_singleton] at h
    exact h ▸ isDigit_digitChar n
  | case2 n hn ih =>
    rw [natChars, if_neg hn, List.mem_append, List.mem_singleton] at h
    rcases h with h | h
    · exact ih h
    · exact h ▸ isDigit_digitChar _

/-- A number of more than one digit does not begin with zero. -/
theorem head?_natChars {n : Nat} (h : (natChars n).head? = some '0') :
    (natChars n).length = 1 := by
  induction n using natChars.induct with
  | case1 n hn => rw [natChars, if_pos hn, List.length_singleton]
  | case2 n hn ih =>
    obtain ⟨c, cs, hcs⟩ := List.exists_cons_of_ne_nil (natChars_ne_nil (n / 10))
    rw [natChars, if_neg hn, hcs, List.cons_append, List.head?_cons] at h
    rw [hcs, List.head?_cons] at ih
    -- the digits in front would be a single zero, but they are those of a positive number
    have hzero : c = '0' := Option.some.inj h
    have hnil : cs = [] := List.length_eq_zero_iff.mp (Nat.succ.inj (ih h))
    have hvalue := value_natChars (n / 10)
    rw [hcs, hzero, hnil] at hvalue
    have : n / 10 = 0 := hvalue.symm
    omega

theorem mem_intChars {i : Int} {c : Char} (h : c ∈ intChars i) :
    c = '-' ∨ isDigit c = true := by
  cases i with
  | ofNat k => exact .inr (isDigit_of_mem_natChars h)
  | negSucc k =>
    rcases List.mem_cons.mp h with rfl | h
    · exact .inl rfl
    · exact .inr (isDigit_of_mem_natChars h)

theorem intChars_ne_nil (i : Int) : intChars i ≠ [] := by
  cases i with
  | ofNat k => exact natChars_ne_nil k
  | negSucc k => exact List.cons_ne_nil _ _

end Decimal

namespace Json

/-! ## §2 Numerals -/

namespace Numeral

theorem unsigned?_natChars (negative : Bool) (n : Nat) :
    unsigned? negative (Decimal.natChars n) =
      some ⟨negative, Decimal.natChars n, [], none⟩ := by
  have hdigits : ∀ c ∈ Decimal.natChars n, Decimal.isDigit c = true :=
    fun _ => Decimal.isDigit_of_mem_natChars
  have hform : ¬ (Decimal.natChars n = [] ∨
      (Decimal.natChars n).head? = some '0' ∧ (Decimal.natChars n).length ≠ 1) := by
    rintro (hnil | ⟨hzero, hlength⟩)
    · exact Decimal.natChars_ne_nil n hnil
    · exact hlength (Decimal.head?_natChars hzero)
  unfold unsigned?
  rw [List.takeWhile_eq_self_iff.mpr hdigits, List.dropWhile_eq_nil_iff.mpr hdigits]
  simp only [if_neg hform]
  rfl

/-- 64 bits hold an integer, signed or unsigned. -/
def Fits (i : Int) : Prop :=
  -(Nat.pow 2 63 : Int) ≤ i ∧ i ≤ (largest : Int)

instance (i : Int) : Decidable (Fits i) := inferInstanceAs (Decidable (_ ∧ _))

/-- An integer of 64 bits is the value of its numeral. -/
theorem value?_intChars {i : Int} (h : Fits i) :
    ∃ numeral, ofChars? (Decimal.intChars i) = some numeral ∧
      numeral.value? = some (.integer i) := by
  cases i with
  | ofNat n =>
    refine ⟨⟨false, Decimal.natChars n, [], none⟩, ?_, ?_⟩
    · rw [Decimal.intChars, ofChars?, unsigned?_natChars]
      -- a digit is no sign
      intro cs hcs
      have hmem : '-' ∈ Decimal.natChars n := hcs ▸ List.mem_cons_self
      exact absurd (Decimal.isDigit_of_mem_natChars hmem) (by decide)
    · have hlargest : n ≤ largest := Int.ofNat_le.mp h.2
      simp [value?, Decimal.value_natChars, hlargest]
  | negSucc n =>
    refine ⟨⟨true, Decimal.natChars (n + 1), [], none⟩, ?_, ?_⟩
    · rw [Decimal.intChars, ofChars?, unsigned?_natChars]
    · have hsmall : n + 1 ≤ Nat.pow 2 63 := by
        have hge : -(Nat.pow 2 63 : Int) ≤ Int.negSucc n := h.1
        omega
      simp only [value?, Decimal.value_natChars]
      simp only [hsmall, Int.negSucc_eq, and_self, if_true, Nat.zero_lt_succ]
      rfl

end Numeral

end Json

end MetadataCatalog
