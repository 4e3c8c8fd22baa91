import Lexer.Text.Decimal
import Mathlib.Data.List.Induction

/-! # Numerals

**A numeral** of a number is its decimal digits, with any number of zeros in front.  These are all the texts
that are read as the number. -/

namespace Lexer.Decimal

/-- A digit character is the one of its value. -/
theorem digitChar_digitValue {c : Char} (isDigit : isDigit c = true) : digitChar (digitValue c) = c := by
  rw [Decimal.isDigit, Bool.and_eq_true, decide_eq_true_iff, decide_eq_true_iff] at isDigit
  have whole : '0'.toNat + (c.toNat - '0'.toNat) = c.toNat := Nat.add_sub_cancel' isDigit.1
  rw [digitChar, digitValue, whole, Char.ofNat_toNat]

/-- The value of a digit character is below ten. -/
theorem digitValue_lt {c : Char} (isDigit : isDigit c = true) : digitValue c < 10 := by
  rw [Decimal.isDigit, Bool.and_eq_true, decide_eq_true_iff, decide_eq_true_iff] at isDigit
  have zero : '0'.toNat = 48 := rfl
  have nine : '9'.toNat = 57 := rfl
  rw [digitValue]
  omega

/-- Zeros in front have no value. -/
theorem valueFrom_replicate_zero (count : Nat) : valueFrom 0 (List.replicate count '0') = 0 := by
  induction count with
  | zero => rfl
  | succ count ih => rw [List.replicate_succ]; exact ih

/-- One more digit behind a number that is not zero is written behind it. -/
theorem write_snoc {number digit : Nat} (positive : 0 < number) (small : digit < 10) :
    write (number * 10 + digit) = write number ++ [digitChar digit] := by
  have large : ¬ number * 10 + digit < 10 := by omega
  have front : (number * 10 + digit) / 10 = number := by omega
  have last : (number * 10 + digit) % 10 = digit := by omega
  rw [write, if_neg large, front, last]

/-- A text is read exactly if it is not empty and has digits only, and then as their value. -/
theorem read?_eq_some_iff_value {text : Text} {number : Nat} :
    read? text = some number ↔ text ≠ [] ∧ text.all isDigit = true ∧ valueFrom 0 text = number := by
  rw [read?, Option.ite_none_left_eq_some, Bool.or_eq_true, not_or, List.isEmpty_iff,
    Bool.not_eq_true', Bool.not_eq_false, Option.some.injEq, and_assoc]

/-- **Digits** are written as their value, behind some zeros. -/
theorem exists_zeros {digits : Text} (full : digits ≠ []) (all : digits.all isDigit = true) :
    ∃ zeros, digits = List.replicate zeros '0' ++ write (valueFrom 0 digits) := by
  -- digits are added at the end, where they are the last ones that are written
  induction digits using List.reverseRecOn with
  | nil => exact absurd rfl full
  | append_singleton front last ih =>
      rw [List.all_append, Bool.and_eq_true, List.all_cons, List.all_nil, Bool.and_true] at all
      obtain ⟨frontDigits, isDigit⟩ := all
      have small := digitValue_lt isDigit
      have value : valueFrom 0 (front ++ [last]) = valueFrom 0 front * 10 + digitValue last :=
        valueFrom_append 0 front [last]
      have single : write (digitValue last) = [last] := by
        rw [write, if_pos small, digitChar_digitValue isDigit]
      rw [value]
      by_cases alone : front = []
      · subst alone
        have nothing : valueFrom 0 ([] : Text) * 10 + digitValue last = digitValue last :=
          Nat.zero_add _
        exact ⟨0, by rw [nothing, single]; rfl⟩
      · obtain ⟨zeros, written⟩ := ih alone frontDigits
        by_cases positive : 0 < valueFrom 0 front
        · refine ⟨zeros, ?_⟩
          rw [write_snoc positive small, digitChar_digitValue isDigit, ← List.append_assoc, ← written]
        · -- in front of the last digit there is nothing but zeros
          have zero : valueFrom 0 front = 0 := Nat.eq_zero_of_not_pos positive
          have nought : write 0 = ['0'] := by rw [write, if_pos (by decide)]; rfl
          rw [zero, nought, ← List.replicate_succ'] at written
          refine ⟨zeros + 1, ?_⟩
          rw [zero, Nat.zero_mul, Nat.zero_add, single, ← written]

/-- **Numerals of a number** are its digits, with any number of zeros in front. -/
def IsNumeral (number : Nat) (text : Text) : Prop :=
  ∃ zeros, text = List.replicate zeros '0' ++ write number

/-- **The numerals of a number** are the texts that are read as it. -/
theorem read?_eq_some_iff {text : Text} {number : Nat} :
    read? text = some number ↔ IsNumeral number text := by
  rw [read?_eq_some_iff_value]
  constructor
  · rintro ⟨full, all, rfl⟩
    exact exists_zeros full all
  · rintro ⟨zeros, rfl⟩
    have zerosDigits : (List.replicate zeros '0').all isDigit = true := by
      rw [List.all_eq_true]
      intro c member
      obtain rfl := List.eq_of_mem_replicate member
      decide
    refine ⟨?_, ?_, ?_⟩
    · intro empty
      exact write_ne_nil number (List.append_eq_nil_iff.1 empty).2
    · rw [List.all_append, zerosDigits, all_isDigit_write, Bool.and_true]
    · rw [valueFrom_append, valueFrom_replicate_zero, valueFrom_write]

end Lexer.Decimal
