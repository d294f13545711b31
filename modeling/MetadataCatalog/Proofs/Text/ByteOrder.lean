import Mathlib.Data.List.Lex
import Mathlib.Order.Basic

/-!
# The order of bytes

Texts are compared character by character. That is the order of their bytes, too: a character of a
higher number has higher bytes from some byte on (`encodeChar_before`), and so a text that comes after
another one does so byte by byte (`bytes_lt_of_lt`), and a list of texts as well
(`map_bytes_lt_of_lt`).
-/

namespace MetadataCatalog.Text

/-- The bytes of a text. -/
def bytes (s : String) : List UInt8 := s.toUTF8.data.toList

theorem bytes_eq (s : String) : bytes s = s.toList.flatMap String.utf8EncodeChar := by
  have hencode : s.toUTF8 = s.toList.utf8Encode := String.utf8Encode_toList.symm
  rw [bytes, hencode, List.utf8Encode, List.data_toByteArray]

/-- Whether sequences of bytes differ somewhere, where the first of them has the lower byte. -/
def Before (bs bs' : List UInt8) : Prop :=
  ∃ front b b' back back', bs = front ++ b :: back ∧ bs' = front ++ b' :: back' ∧ b < b'

theorem Before.head {b b' : UInt8} (h : b < b') (back back' : List UInt8) :
    Before (b :: back) (b' :: back') :=
  ⟨[], b, b', back, back', rfl, rfl, h⟩

theorem Before.cons {bs bs' : List UInt8} (h : Before bs bs') (c : UInt8) :
    Before (c :: bs) (c :: bs') := by
  obtain ⟨front, b, b', back, back', rfl, rfl, hlt⟩ := h
  exact ⟨c :: front, b, b', back, back', rfl, rfl, hlt⟩

theorem ofNat_lt {n m : Nat} (hm : m < 256) (h : n < m) : UInt8.ofNat n < UInt8.ofNat m := by
  rw [UInt8.lt_iff_toNat_lt, UInt8.toNat_ofNat', UInt8.toNat_ofNat']
  omega

/-- A byte that is not higher decides, or leaves it to those behind it. -/
theorem Before.ofNat {n m : Nat} (hm : m < 256) (hle : n ≤ m) {bs bs' : List UInt8}
    (h : n = m → Before bs bs') : Before (UInt8.ofNat n :: bs) (UInt8.ofNat m :: bs') := by
  rcases hle.lt_or_eq with hlt | rfl
  · exact .head (ofNat_lt hm hlt) bs bs'
  · exact (h rfl).cons _

/-- The bytes of a lower character come before those of a higher one. -/
theorem encodeChar_before {c d : Char} (h : c < d) :
    Before (String.utf8EncodeChar c) (String.utf8EncodeChar d) := by
  have hlt : c.val.toNat < d.val.toNat := h
  have hbound : d.val.toNat < 1114112 := by
    rcases d.valid with hvalid | hvalid
    · exact hvalid.trans (by decide)
    · exact hvalid.2
  unfold String.utf8EncodeChar
  generalize c.val.toNat = n at hlt
  generalize d.val.toNat = m at hlt hbound
  dsimp only
  -- more bytes begin with a higher one; as many bytes are digits of the numbers
  split_ifs
  · exact .head (ofNat_lt (by omega) hlt) _ _
  · exact .head (ofNat_lt (by omega) (by omega)) _ _
  · exact .head (ofNat_lt (by omega) (by omega)) _ _
  · exact .head (ofNat_lt (by omega) (by omega)) _ _
  · omega
  · exact .ofNat (by omega) (by omega) fun _ => .head (ofNat_lt (by omega) (by omega)) _ _
  · exact .head (ofNat_lt (by omega) (by omega)) _ _
  · exact .head (ofNat_lt (by omega) (by omega)) _ _
  · omega
  · omega
  · exact .ofNat (by omega) (by omega) fun _ => .ofNat (by omega) (by omega) fun _ =>
      .head (ofNat_lt (by omega) (by omega)) _ _
  · exact .head (ofNat_lt (by omega) (by omega)) _ _
  · omega
  · omega
  · omega
  · exact .ofNat (by omega) (by omega) fun _ => .ofNat (by omega) (by omega) fun _ =>
      .ofNat (by omega) (by omega) fun _ => .head (ofNat_lt (by omega) (by omega)) _ _

/-- Bytes with such a difference are in order, whatever follows. -/
theorem Before.append_lt {bs bs' : List UInt8} (h : Before bs bs') (more more' : List UInt8) :
    bs ++ more < bs' ++ more' := by
  obtain ⟨front, b, b', back, back', rfl, rfl, hlt⟩ := h
  induction front with
  | nil => exact List.cons_lt_cons_iff.mpr (.inl hlt)
  | cons c front ih => exact List.cons_lt_cons_iff.mpr (.inr ⟨rfl, ih⟩)

theorem flatMap_encodeChar_lt {cs ds : List Char} (h : cs < ds) :
    cs.flatMap String.utf8EncodeChar < ds.flatMap String.utf8EncodeChar := by
  have hlex : List.Lex (· < ·) cs ds := h
  induction hlex with
  | @nil d ds =>
    have hne : String.utf8EncodeChar d ≠ [] := String.utf8EncodeChar_ne_nil
    obtain ⟨b, bs, hbytes⟩ := List.exists_cons_of_ne_nil hne
    rw [List.flatMap_cons, hbytes]
    exact List.nil_lt_cons ..
  | cons hlex ih => exact List.append_left_lt (ih hlex)
  | rel hlt => exact (encodeChar_before hlt).append_lt _ _

/-- A text that comes before another one does so byte by byte. -/
theorem bytes_lt_of_lt {s t : String} (h : s < t) : bytes s < bytes t := by
  rw [bytes_eq, bytes_eq]
  exact flatMap_encodeChar_lt (String.lt_iff.mp h)

/-- And a list of texts, text by text. -/
theorem map_bytes_lt_of_lt {names names' : List String} (h : names < names') :
    names.map bytes < names'.map bytes := by
  have hlex : List.Lex (· < ·) names names' := h
  induction hlex with
  | nil => exact List.nil_lt_cons ..
  | cons hlex ih => exact List.cons_lt_cons_iff.mpr (.inr ⟨rfl, ih hlex⟩)
  | rel hlt => exact List.cons_lt_cons_iff.mpr (.inl (bytes_lt_of_lt hlt))

end MetadataCatalog.Text
