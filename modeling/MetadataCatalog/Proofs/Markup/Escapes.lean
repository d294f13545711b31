import MetadataCatalog.Markup.DocumentText
import Mathlib.Data.Nat.Digits.Defs

/-!
# Escaped texts

How texts are written in marked-up text: a character other than an opening bracket and an ampersand
stands for itself, and every character can be written as an entity, by its name if it has one or by
its number. Replacing the entities gives back the text that was written (`Escaped.unescape?_eq`), and
every text can be written (`exists_escaped`).
-/

namespace MetadataCatalog.DocumentText

/-! ## §1 Entities -/

/-- The digits of a number in a base, the highest one first. Zeros may stand in front, and letters
may be capitals. -/
def IsNumeral (base : Nat) (digits : List Char) (n : Nat) : Prop :=
  ∃ values : List Nat, digits.map Text.hexValue? = values.map some ∧ (∀ d ∈ values, d < base) ∧
    Nat.ofDigits base values.reverse = n

/-- What stands for a character between an ampersand and a semicolon. -/
inductive IsEntity : List Char → Char → Prop where
  | lt : IsEntity "lt".toList '<'
  | gt : IsEntity "gt".toList '>'
  | amp : IsEntity "amp".toList '&'
  | apos : IsEntity "apos".toList '\''
  | quot : IsEntity "quot".toList '"'
  /-- A decimal number of at most seven digits. -/
  | decimal {digits : List Char} {c : Char} (h : IsNumeral 10 digits c.toNat)
      (hlen : digits.length ≤ 7) (hc : c ≠ Char.ofNat 0) : IsEntity ('#' :: digits) c
  /-- A hexadecimal number of at most six digits. -/
  | hexadecimal {digits : List Char} {c : Char} (h : IsNumeral 16 digits c.toNat)
      (hlen : digits.length ≤ 6) (hc : c ≠ Char.ofNat 0) : IsEntity ('#' :: 'x' :: digits) c

theorem IsNumeral.exists_value {base n : Nat} {digits : List Char} (h : IsNumeral base digits n) :
    ∀ c ∈ digits, ∃ d, Text.hexValue? c = some d := by
  obtain ⟨values, hvalues, -, -⟩ := h
  intro c hc
  have hmem : Text.hexValue? c ∈ values.map some := by
    rw [← hvalues]
    exact List.mem_map_of_mem hc
  obtain ⟨d, -, hd⟩ := List.mem_map.mp hmem
  exact ⟨d, hd.symm⟩

theorem IsNumeral.number?_eq {base limit n : Nat} {digits : List Char} (h : IsNumeral base digits n)
    (hlen : digits.length ≤ limit) : number? base limit digits = some n := by
  obtain ⟨values, hvalues, hbase, rfl⟩ := h
  -- the digits are taken in one after the other
  have hfold : ∀ (digits : List Char) (values : List Nat) (start : Nat),
      digits.map Text.hexValue? = values.map some → (∀ d ∈ values, d < base) →
      digits.foldlM (fun n c => do
          let d ← Text.hexValue? c
          if d < base then some (base * n + d) else none) start =
        some (values.foldl (fun n d => d + base * n) start) := by
    intro digits
    induction digits with
    | nil =>
      intro values start hvalues _
      obtain rfl : values = [] := by simpa using hvalues.symm
      rfl
    | cons c digits ih =>
      intro values start hvalues hbase
      cases values with
      | nil => cases hvalues
      | cons d values =>
        obtain ⟨hc, hrest⟩ := List.cons.inj hvalues
        have hd : d < base := hbase d List.mem_cons_self
        rw [List.foldlM_cons, hc, List.foldl_cons,
          ← ih values _ hrest fun e he => hbase e (List.mem_cons_of_mem d he)]
        simp [hd, Nat.add_comm]
  unfold number?
  rw [if_neg (by omega), hfold digits values 0 hvalues hbase, Nat.ofDigits_eq_foldr,
    List.foldr_reverse]
  rfl

theorem character?_toNat {c : Char} (hc : c ≠ Char.ofNat 0) : character? c.toNat = some c := by
  have hcode : c.toNat ≠ 0 := by
    intro h
    apply hc
    rw [← Char.ofNat_toNat c, h]
  unfold character?
  rw [if_pos ⟨hcode, c.valid⟩, Char.ofNat_toNat]

theorem IsEntity.entity?_eq {written : List Char} {c : Char} (h : IsEntity written c) :
    entity? written = some c := by
  cases h with
  | lt | gt | amp | apos | quot => decide +kernel
  | @decimal digits _ h hlen hc =>
    -- a decimal number has no letter in it
    have hx : ∀ rest, digits ≠ 'x' :: rest := by
      rintro rest rfl
      obtain ⟨d, hd⟩ := h.exists_value 'x' List.mem_cons_self
      cases hd
    unfold entity?
    split
    · next digits heq => exact absurd (List.cons.inj heq).2 (hx digits)
    · next heq =>
      obtain ⟨-, rfl⟩ := List.cons.inj heq
      rw [h.number?_eq hlen]
      exact character?_toNat hc
    · next hnot => exact (hnot digits rfl).elim
  | hexadecimal h hlen hc =>
    show (number? 16 6 _).bind character? = _
    rw [h.number?_eq hlen]
    exact character?_toNat hc

theorem IsEntity.plain {written : List Char} {c : Char} (h : IsEntity written c) :
    ∀ d ∈ written, d ≠ '&' ∧ d ≠ ';' ∧ d ≠ '<' := by
  have hdigits : ∀ {base n : Nat} {digits : List Char}, IsNumeral base digits n →
      ∀ d ∈ digits, d ≠ '&' ∧ d ≠ ';' ∧ d ≠ '<' := by
    intro base n digits hnumeral d hd
    obtain ⟨value, hvalue⟩ := hnumeral.exists_value d hd
    refine ⟨?_, ?_, ?_⟩ <;> rintro rfl <;> cases hvalue
  cases h with
  | lt | gt | amp | apos | quot => simp
  | decimal h =>
    rw [List.forall_mem_cons]
    exact ⟨by decide, hdigits h⟩
  | hexadecimal h =>
    rw [List.forall_mem_cons, List.forall_mem_cons]
    exact ⟨by decide, by decide, hdigits h⟩

/-! ## §2 Texts -/

/-- Characters that a text can be written as. -/
inductive Escaped : List Char → List Char → Prop where
  | nil : Escaped [] []
  /-- A character that stands for itself. -/
  | plain {c : Char} {written cs : List Char} (hc : c ≠ '<' ∧ c ≠ '&') (h : Escaped written cs) :
      Escaped (c :: written) (c :: cs)
  /-- A character that an entity stands for. -/
  | entity {name written cs : List Char} {c : Char} (hc : IsEntity name c)
      (h : Escaped written cs) : Escaped ('&' :: name ++ ';' :: written) (c :: cs)

theorem unescape?_plain {c : Char} (hc : c ≠ '&') (cs : List Char) :
    unescape? (c :: cs) = (unescape? cs).map (c :: ·) := by
  rw [unescape?, if_neg hc]

theorem unescape?_entity {name : List Char} (h : ∀ d ∈ name, d ≠ '&' ∧ d ≠ ';') (cs : List Char) :
    unescape? ('&' :: name ++ ';' :: cs) =
      (entity? name).bind fun c => (unescape? cs).map (c :: ·) := by
  have hplain : ∀ d ∈ name, decide (d ≠ '&' ∧ d ≠ ';') = true := fun d hd => decide_eq_true (h d hd)
  have htake : (name ++ ';' :: cs).takeWhile (fun d => d ≠ '&' ∧ d ≠ ';') = name := by
    rw [List.takeWhile_append_of_pos hplain]
    simp
  have hdrop : (name ++ ';' :: cs).dropWhile (fun d => d ≠ '&' ∧ d ≠ ';') = ';' :: cs := by
    rw [List.dropWhile_append_of_pos hplain]
    simp
  have hrest : (name ++ ';' :: cs).drop (name.length + 1) = cs := by
    rw [List.drop_append]
    simp
  rw [List.cons_append, unescape?, if_pos rfl, hdrop]
  simp only [htake, hrest]
  cases entity? name with
  | none => rfl
  | some c => cases unescape? cs <;> rfl

/-- What has been written is read. -/
theorem Escaped.unescape?_eq {written cs : List Char} (h : Escaped written cs) :
    unescape? written = some cs := by
  induction h with
  | nil => rw [unescape?]
  | plain hc _ ih => rw [unescape?_plain hc.2, ih]; rfl
  | entity hc _ ih =>
    rw [unescape?_entity fun d hd => ⟨(hc.plain d hd).1, (hc.plain d hd).2.1⟩, hc.entity?_eq, ih]
    rfl

theorem Escaped.angle_not_mem {written cs : List Char} (h : Escaped written cs) :
    '<' ∉ written := by
  induction h with
  | nil => simp
  | plain hc _ ih => simp [hc.1.symm, ih]
  | @entity name _ _ _ hc _ ih =>
    have hname : '<' ∉ name := fun hmem => (hc.plain '<' hmem).2.2 rfl
    simp [hname, ih]

/-- Every text can be written. -/
theorem exists_escaped (cs : List Char) : ∃ written, Escaped written cs := by
  induction cs with
  | nil => exact ⟨[], .nil⟩
  | cons c cs ih =>
    obtain ⟨written, h⟩ := ih
    by_cases hc : c ≠ '<' ∧ c ≠ '&'
    · exact ⟨_, .plain hc h⟩
    · rcases Decidable.not_and_iff_not_or_not.mp hc with hlt | hamp
      · obtain rfl := Decidable.not_not.mp hlt
        exact ⟨_, .entity .lt h⟩
      · obtain rfl := Decidable.not_not.mp hamp
        exact ⟨_, .entity .amp h⟩

end MetadataCatalog.DocumentText
