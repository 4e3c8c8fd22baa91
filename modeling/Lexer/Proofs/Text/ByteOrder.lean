import Lexer.Text.Marked
import Mathlib.Algebra.Group.Nat.Defs

/-! # The order of bytes

Texts are compared character by character, and their UTF-8 encodings byte by byte.  **Both orders are the
same**: of two characters the larger one has the larger leading byte, or the same leading byte and larger
bytes behind it. -/

namespace Lexer.Text

/-! ## (1) Bytes of one character -/

/-- Bytes are compared as the numbers below 256 that they hold. -/
theorem ofNat_cons_lt {a b : Nat} (aSmall : a < 256) (bSmall : b < 256) {left right : List UInt8}
    (less : a < b ∨ a = b ∧ left < right) : UInt8.ofNat a :: left < UInt8.ofNat b :: right := by
  rw [List.cons_lt_cons_iff, UInt8.lt_iff_toNat_lt, UInt8.toNat_ofNat_of_lt' aSmall,
    UInt8.toNat_ofNat_of_lt' bSmall]
  rcases less with less | ⟨rfl, less⟩
  · exact .inl less
  · exact .inr ⟨rfl, less⟩

/-- **Behind the leading byte** each byte holds six bits, the higher ones first. -/
def tailBytes (v : Nat) : Nat → List UInt8
  | 0 => []
  | count + 1 => UInt8.ofNat (v / 64 ^ count % 64 + 128) :: tailBytes v count

/-- The bits behind the leading byte are compared as a number. -/
theorem tailBytes_append_lt {v w count : Nat} (less : v % 64 ^ count < w % 64 ^ count)
    (left right : List UInt8) : tailBytes v count ++ left < tailBytes w count ++ right := by
  induction count with
  | zero => rw [Nat.pow_zero, Nat.mod_one, Nat.mod_one] at less; exact absurd less (Nat.lt_irrefl 0)
  | succ count ih =>
      rw [tailBytes, tailBytes, List.cons_append, List.cons_append]
      refine ofNat_cons_lt (by omega) (by omega) ?_
      rw [Nat.mod_pow_succ, Nat.mod_pow_succ] at less
      rcases Nat.lt_trichotomy (v / 64 ^ count % 64) (w / 64 ^ count % 64) with high | same | high
      · exact .inl (by omega)
      · rw [same] at less
        exact .inr ⟨by rw [same], ih (Nat.lt_of_add_lt_add_right less)⟩
      · -- a larger digit in front cannot be made up for by those behind it
        have step := Nat.mul_le_mul_left (64 ^ count) (Nat.succ_le_of_lt high)
        have rest : w % 64 ^ count < 64 ^ count := Nat.mod_lt _ (Nat.pow_pos (by decide))
        rw [Nat.mul_succ] at step
        omega

/-- Two characters with as many bytes: the leading ones decide, or those behind them. -/
theorem leading_cons_append_lt {v w count base : Nat} (less : v < w)
    (fits : w / 64 ^ count + base < 256) (left right : List UInt8) :
    UInt8.ofNat (v / 64 ^ count + base) :: (tailBytes v count ++ left) <
      UInt8.ofNat (w / 64 ^ count + base) :: (tailBytes w count ++ right) := by
  have high : v / 64 ^ count ≤ w / 64 ^ count := Nat.div_le_div_right (Nat.le_of_lt less)
  refine ofNat_cons_lt (by omega) fits ?_
  rcases Nat.lt_or_eq_of_le high with high | same
  · exact .inl (by omega)
  · refine .inr ⟨by rw [same], tailBytes_append_lt ?_ left right⟩
    have whole := Nat.div_add_mod v (64 ^ count)
    have other := Nat.div_add_mod w (64 ^ count)
    rw [same] at whole
    omega

/-- **Encodings with a given number of bytes** behind the leading one: a base that marks the number, and the
numbers of the characters that take as many. -/
def Takes (v count base : Nat) : Prop :=
  count = 0 ∧ base = 0 ∧ v < 0x80 ∨ count = 1 ∧ base = 0xC0 ∧ 0x80 ≤ v ∧ v < 0x800 ∨
    count = 2 ∧ base = 0xE0 ∧ 0x800 ≤ v ∧ v < 0x10000 ∨
    count = 3 ∧ base = 0xF0 ∧ 0x10000 ≤ v ∧ v < 0x110000

/-- **The bytes of a character.** -/
theorem utf8EncodeChar_eq (c : Char) :
    ∃ count base, Takes c.toNat count base ∧ String.utf8EncodeChar c =
      UInt8.ofNat (c.toNat / 64 ^ count + base) :: tailBytes c.toNat count := by
  have bound : c.toNat < 0x110000 := by
    have valid := c.valid
    simp only [UInt32.isValidChar, Nat.isValidChar] at valid
    rw [Char.toNat]
    omega
  unfold String.utf8EncodeChar Takes
  rw [← Char.toNat]
  generalize c.toNat = v at bound ⊢
  simp only
  split
  · exact ⟨0, 0, by omega, by rw [Nat.pow_zero, Nat.div_one]; rfl⟩
  split
  · refine ⟨1, 0xC0, by omega, ?_⟩
    have lead : v / 64 % 32 = v / 64 := Nat.mod_eq_of_lt (by omega)
    simp only [tailBytes, lead, Nat.pow_zero, Nat.pow_one, Nat.div_one]
  split
  · refine ⟨2, 0xE0, by omega, ?_⟩
    have lead : v / 4096 % 16 = v / 4096 := Nat.mod_eq_of_lt (by omega)
    simp only [tailBytes, lead, Nat.pow_zero, Nat.pow_one, Nat.div_one, Nat.reducePow]
  · refine ⟨3, 0xF0, by omega, ?_⟩
    have lead : v / 262144 % 8 = v / 262144 := Nat.mod_eq_of_lt (by omega)
    simp only [tailBytes, lead, Nat.pow_zero, Nat.pow_one, Nat.div_one, Nat.reducePow]

/-- **The smaller character has the smaller bytes**, whatever follows them. -/
theorem utf8EncodeChar_append_lt {c d : Char} (less : c < d) (left right : List UInt8) :
    String.utf8EncodeChar c ++ left < String.utf8EncodeChar d ++ right := by
  obtain ⟨count, base, takes, bytes⟩ := utf8EncodeChar_eq c
  obtain ⟨others, mark, itTakes, itsBytes⟩ := utf8EncodeChar_eq d
  have less : c.toNat < d.toNat := less
  rw [bytes, itsBytes, List.cons_append, List.cons_append]
  by_cases same : count = others
  · subst same
    obtain rfl : base = mark := by
      rcases takes with takes | takes | takes | takes <;>
        rcases itTakes with its | its | its | its <;> omega
    refine leading_cons_append_lt less ?_ left right
    rcases itTakes with ⟨rfl, rfl, _⟩ | ⟨rfl, rfl, _⟩ | ⟨rfl, rfl, _⟩ | ⟨rfl, rfl, _⟩ <;> omega
  · -- the marks of the leading bytes are further apart than the bits behind them
    rcases takes with ⟨rfl, rfl, _⟩ | ⟨rfl, rfl, _⟩ | ⟨rfl, rfl, _⟩ | ⟨rfl, rfl, _⟩ <;>
      rcases itTakes with ⟨rfl, rfl, _⟩ | ⟨rfl, rfl, _⟩ | ⟨rfl, rfl, _⟩ | ⟨rfl, rfl, _⟩ <;>
        exact ofNat_cons_lt (by omega) (by omega) (.inl (by omega))

/-! ## (2) Bytes of a text -/

/-- The bytes of the first character come first. -/
theorem bytes_cons (c : Char) (text : Text) :
    bytes (c :: text) = String.utf8EncodeChar c ++ bytes text :=
  List.flatMap_cons

/-- **The smaller text has the smaller bytes.** -/
theorem bytes_lt_bytes {left right : Text} (less : left < right) : left.bytes < right.bytes := by
  induction left generalizing right with
  | nil =>
      cases right with
      | nil => exact absurd less (List.lt_irrefl [])
      | cons c right =>
          obtain ⟨count, base, -, bytes⟩ := utf8EncodeChar_eq c
          rw [bytes_cons, bytes]
          exact List.nil_lt_cons _ _
  | cons c left ih =>
      cases right with
      | nil => exact absurd less (List.not_lt_nil _)
      | cons d right =>
          rw [bytes_cons, bytes_cons]
          rcases List.cons_lt_cons_iff.1 less with first | ⟨rfl, rest⟩
          · exact utf8EncodeChar_append_lt first _ _
          · exact List.append_left_lt (ih rest)

end Lexer.Text
