import Lexer.Text.Basic

/-! # Decimal numbers

Natural numbers are written in decimal without leading zeros.  Reading accepts any non-empty run of
the ten ASCII digits, and gives the number that was written. -/

namespace Lexer.Decimal

/-- The digit characters are `0` to `9`. -/
def isDigit (c : Char) : Bool :=
  '0'.toNat ≤ c.toNat && c.toNat ≤ '9'.toNat

/-- The value of a digit character. -/
def digitValue (c : Char) : Nat :=
  c.toNat - '0'.toNat

/-- The character of a digit below ten. -/
def digitChar (digit : Nat) : Char :=
  Char.ofNat ('0'.toNat + digit)

/-- **The decimal digits** of a number, most significant first. -/
def write (number : Nat) : Text :=
  if number < 10 then [digitChar number]
  else write (number / 10) ++ [digitChar (number % 10)]

/-- The number that digits continue, from the number in front of them. -/
def valueFrom (number : Nat) (digits : Text) : Nat :=
  digits.foldl (fun value digit => value * 10 + digitValue digit) number

/-- **Read a number** from a non-empty text of digits. -/
def read? (text : Text) : Option Nat :=
  if text.isEmpty || !text.all isDigit then none else some (valueFrom 0 text)

/-- A digit below ten is read back. -/
theorem digitValue_digitChar {digit : Nat} (small : digit < 10) :
    digitValue (digitChar digit) = digit := by
  have : ∀ d : Fin 10, digitValue (digitChar d) = d := by decide
  exact this ⟨digit, small⟩

/-- The character of a digit below ten is a digit. -/
theorem isDigit_digitChar {digit : Nat} (small : digit < 10) :
    isDigit (digitChar digit) = true := by
  have : ∀ d : Fin 10, isDigit (digitChar d) = true := by decide
  exact this ⟨digit, small⟩

/-- Digits after digits continue the number. -/
theorem valueFrom_append (number : Nat) (left right : Text) :
    valueFrom number (left ++ right) = valueFrom (valueFrom number left) right := by
  simp [valueFrom]

/-- The digits of a number have its value. -/
theorem valueFrom_write (number : Nat) : valueFrom 0 (write number) = number := by
  induction number using Nat.strongRecOn with
  | ind number ih =>
      unfold write
      split
      · next small => simp [valueFrom, digitValue_digitChar small]
      · next large =>
          rw [valueFrom_append, ih _ (by omega)]
          simp only [valueFrom, List.foldl_cons, List.foldl_nil,
            digitValue_digitChar (Nat.mod_lt number (by omega))]
          omega

/-- A number is written with digits only. -/
theorem all_isDigit_write (number : Nat) : (write number).all isDigit = true := by
  induction number using Nat.strongRecOn with
  | ind number ih =>
      unfold write
      split
      · next small => simp [isDigit_digitChar small]
      · next large =>
          rw [List.all_append, ih _ (by omega)]
          simp [isDigit_digitChar (Nat.mod_lt number (by omega : 0 < 10))]

/-- A number has at least one digit. -/
theorem write_ne_nil (number : Nat) : write number ≠ [] := by
  unfold write
  split <;> simp

/-- Reading gives back the number that was written. -/
@[simp] theorem read?_write (number : Nat) : read? (write number) = some number := by
  simp [read?, all_isDigit_write, write_ne_nil, valueFrom_write]

end Lexer.Decimal
