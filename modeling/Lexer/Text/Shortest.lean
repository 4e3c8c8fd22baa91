import Lexer.Text.Decimal

/-! # Shortest decimals

**A finite binary fraction** `mantissa * 2 ^ exponent` is written with the fewest digits that are
nearer to it than to its neighbours.  On the grid of a given number of digits only the two points
around the value come into question; the first grid with a point between the midpoints to the
neighbours wins, and of two such points the nearer one.  The midpoints themselves count if the mantissa
is even.  All arithmetic is exact. -/

namespace Lexer.Shortest

/-- **A finite positive binary number** of double precision. -/
structure Binary where
  /-- The mantissa, below `2 ^ 53`. -/
  mantissa : Nat
  /-- The exponent of two. -/
  exponent : Int
  deriving DecidableEq, Repr

/-- The least mantissa with all 53 bits, which is `2 ^ 52`. -/
def leastNormal : Nat :=
  4503599627370496

/-- **A positive decimal**: its digits, and the power of ten of the first one. -/
structure Digits where
  /-- The digits as one number, without zeros at the end. -/
  number : Nat
  /-- The power of ten of the first digit. -/
  power : Int
  deriving DecidableEq, Repr

/-- A power of two or ten as a fraction, numerator first. -/
def powerRatio (base : Nat) (exponent : Int) : Nat × Nat :=
  match exponent with
  | .ofNat n => (base.pow n, 1)
  | .negSucc n => (1, base.pow (n + 1))

/-- The power of ten of the first digit of a fraction below one, from a given power down. -/
def smallPower (numerator denominator : Nat) : (fuel : Nat) → (power : Nat) → Nat
  | 0, power => power
  | fuel + 1, power =>
      if denominator ≤ numerator * Nat.pow 10 power then power
      else smallPower numerator denominator fuel (power + 1)

/-- **The power of ten** of the first digit of a positive fraction. -/
def leadingPower (numerator denominator : Nat) : Int :=
  if denominator ≤ numerator then
    .ofNat ((Decimal.write (numerator / denominator)).length - 1)
  else -(.ofNat (smallPower numerator denominator 400 1))

/-- Quarters of the unit in the last place: from the midpoint below, the value, to the one above.
Below a power of two the neighbours are closer. -/
def quarters (value : Binary) : Nat × Nat × Nat :=
  let middle := 4 * value.mantissa
  let low := if value.mantissa = leastNormal ∧ -1074 < value.exponent then middle - 1 else middle - 2
  (low, middle, middle + 2)

/-- The nearest point of the grid of some digits, if one lies between the midpoints. -/
def onGrid? (value : Binary) (count : Nat) : Option Digits :=
  let (low, middle, high) := quarters value
  let (scale, unit) := powerRatio 2 (value.exponent - 2)
  let power := leadingPower (middle * scale) unit
  let (up, down) := powerRatio 10 (power - (count - 1))
  -- a grid point `n` stands for the fraction `n * up / down`
  let below := middle * scale * down / (unit * up)
  let inside (n : Nat) : Bool :=
    let point := n * up * unit
    if value.mantissa % 2 = 0 then low * scale * down ≤ point && point ≤ high * scale * down
    else low * scale * down < point && point < high * scale * down
  let exact := middle * scale * down
  let lower := exact - below * up * unit
  let upper := (below + 1) * up * unit - exact
  let chosen (n : Nat) : Digits :=
    ⟨n, if Nat.pow 10 count ≤ n then power + 1 else power⟩
  match inside below, inside (below + 1) with
  | true, true =>
      if lower < upper ∨ (lower = upper ∧ below % 2 = 0) then some (chosen below)
      else some (chosen (below + 1))
  | true, false => some (chosen below)
  | false, true => some (chosen (below + 1))
  | false, false => none

/-- Drop the zeros at the end of a number. -/
def dropZeros : (fuel : Nat) → Nat → Nat
  | 0, n => n
  | fuel + 1, n => if n % 10 = 0 ∧ n ≠ 0 then dropZeros fuel (n / 10) else n

/-- **The shortest digits** of a positive number. -/
def digits (value : Binary) : Digits :=
  match (List.range 17).findSome? fun count => onGrid? value (count + 1) with
  | some found => { found with number := dropZeros 20 found.number }
  | none => ⟨0, 0⟩

/-- **How decimals are written**: positional from one power of ten of the first digit to another, and
with an exponent outside. -/
structure Format where
  /-- The least power of ten that is written positionally. -/
  leastPower : Int
  /-- The greatest power of ten that is written positionally. -/
  greatestPower : Int

/-- Write an exponent with its sign. -/
def writeExponent (power : Int) : Text :=
  'e' :: (if power < 0 then '-' else '+') :: Decimal.write power.natAbs

/-- **Write a decimal**; positional notation always has a digit behind the point. -/
def Format.write (format : Format) (decimal : Digits) : Text :=
  let digits := Decimal.write decimal.number
  if format.leastPower ≤ decimal.power ∧ decimal.power ≤ format.greatestPower then
    if decimal.power < 0 then
      ['0', '.'] ++ List.replicate (decimal.power.natAbs - 1) '0' ++ digits
    else
      let before := decimal.power.toNat + 1
      if digits.length ≤ before then
        digits ++ List.replicate (before - digits.length) '0' ++ ['.', '0']
      else digits.take before ++ '.' :: digits.drop before
  else
    let tail := digits.drop 1
    digits.take 1 ++ (if tail.isEmpty then [] else '.' :: tail) ++ writeExponent decimal.power

end Lexer.Shortest
