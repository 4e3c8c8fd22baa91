import Lexer.Json.Number

/-! # Natural numbers are read back

A written number is a run of digits without a leading zero, so all of it is read up to what follows, if
that is no part of a number.  **Digits** are appended one by one; as long as the number that they make fits
into 64 bits, none is dropped. -/

namespace Lexer.Json

/-- **What may follow a value**: nothing, a comma or a closing bracket. -/
def Delimited : Marked → Prop
  | [] => True
  | c :: _ => c = some ',' ∨ c = some ']' ∨ c = some '}'

/-- Digits are read up to what follows a value. -/
theorem spanDigits_append {digits : Text} (all : digits.all Decimal.isDigit = true) {rest : Marked}
    (delimited : Delimited rest) : spanDigits (digits.marked ++ rest) = (digits, rest) := by
  induction digits with
  | nil =>
      rw [Text.marked_nil, List.nil_append]
      cases rest with
      | nil => rfl
      | cons c rest =>
          rcases delimited with rfl | rfl | rfl
          · rfl
          · rfl
          · rfl
  | cons c digits ih =>
      rw [List.all_cons, Bool.and_eq_true] at all
      rw [Text.marked_cons, List.cons_append, spanDigits, if_pos all.1, ih all.2]

/-- Appending digits does not make a number smaller. -/
theorem le_valueFrom (number : Nat) (digits : Text) : number ≤ Decimal.valueFrom number digits := by
  induction digits generalizing number with
  | nil => exact Nat.le_refl number
  | cons digit digits ih =>
      have longer : number * 10 + Decimal.digitValue digit ≤
          Decimal.valueFrom number (digit :: digits) := ih _
      omega

/-- **Digits of a number of 64 bits** are all appended. -/
theorem appendDigits_eq {number : Nat} {digits : Text}
    (small : Decimal.valueFrom number digits < UInt64.size) :
    appendDigits number digits = (Decimal.valueFrom number digits, 0) := by
  induction digits generalizing number with
  | nil => rfl
  | cons digit digits ih =>
      have longer : Decimal.valueFrom (number * 10 + Decimal.digitValue digit) digits < UInt64.size :=
        small
      -- the number so far is at most the whole one, so it is never too large on the way
      have fits := Nat.lt_of_le_of_lt (le_valueFrom _ digits) longer
      rw [appendDigits, if_pos fits, ih longer]
      rfl

/-- The first digit of a number of several digits is not zero. -/
theorem write_ne_zero_cons (number : Nat) (digit : Char) (digits : Text) :
    Decimal.write number ≠ '0' :: digit :: digits := by
  induction number using Nat.strongRecOn generalizing digit digits with
  | ind number ih =>
      intro same
      rw [Decimal.write] at same
      split at same
      · simp at same
      · next large =>
          cases front : Decimal.write (number / 10) with
          | nil => exact Decimal.write_ne_nil _ front
          | cons first others =>
              rw [front, List.cons_append, List.cons.injEq] at same
              obtain ⟨rfl, same⟩ := same
              cases others with
              | cons second others => exact ih _ (by omega) second others front
              | nil =>
                  -- a single zero is the number zero, but the number has another digit in front
                  have zero := Decimal.valueFrom_write (number / 10)
                  rw [front] at zero
                  have value : Decimal.valueFrom 0 ['0'] = 0 := by decide
                  omega

/-- What follows a value is no fraction and no exponent. -/
theorem fractionPart_eq (digits : Text) {rest : Marked} (delimited : Delimited rest) :
    fractionPart false digits rest = (.whole (.whole false digits), rest) := by
  cases rest with
  | nil => rfl
  | cons c rest =>
      rcases delimited with rfl | rfl | rfl
      · rfl
      · rfl
      · rfl

/-- **A written number of 64 bits** is read back. -/
theorem numeral_write {number : Nat} (small : number < UInt64.size) {rest : Marked}
    (delimited : Delimited rest) :
    numeral false ((Decimal.write number).marked ++ rest) =
      (.whole (.natural (UInt64.ofNat number)), rest) := by
  have value := Decimal.valueFrom_write number
  have appended : appendDigits 0 (Decimal.write number) = (number, 0) := by
    rw [appendDigits_eq (by rwa [value]), value]
  have whole : Number.whole false (Decimal.write number) = .natural (UInt64.ofNat number) := by
    rw [Number.whole, appended]
    rfl
  rw [numeral, spanDigits_append (Decimal.all_isDigit_write number) delimited]
  split
  · next empty => exact absurd (Prod.mk.inj empty).1 (Decimal.write_ne_nil number)
  · next zero => exact absurd (Prod.mk.inj zero).1 (write_ne_zero_cons number _ _)
  · next digits after _ _ same =>
      obtain ⟨rfl, rfl⟩ := Prod.mk.inj same
      rw [fractionPart_eq _ delimited, whole]

end Lexer.Json
