import Lexer.Json.Fault
import Lexer.Text.Marked
import Lexer.Text.Shortest

/-! # Reading JSON numbers

**Whole numbers** of 64 bits are kept exactly: natural numbers below `2 ^ 64`, and negative ones down to
`-2 ^ 63`.  Every other number is a decimal fraction, of whose digits only those are kept that a number
of 64 bits can hold; it is turned into a binary fraction by one conversion and one multiplication or
division by a power of ten.  As with strings, a reader who skips a malformed number may report another
fault than a reader who uses it. -/

namespace Lexer.Json

/-- **Numbers** of a JSON text. -/
inductive Number where
  /-- A natural number below `2 ^ 64`. -/
  | natural (n : UInt64)
  /-- A negative whole number not below `-2 ^ 63`, given by its absolute value. -/
  | negative (n : Nat)
  /-- The number `significand * 10 ^ exponent` or its negative. -/
  | decimal (negative : Bool) (significand : Nat) (exponent : Int)
  deriving DecidableEq, Repr

/-- The digits at the start of a source, and what follows them. -/
def spanDigits : Marked → Text × Marked
  | [] => ([], [])
  | some c :: rest =>
      if Decimal.isDigit c then
        let (digits, rest) := spanDigits rest
        (c :: digits, rest)
      else ([], some c :: rest)
  | none :: rest => ([], none :: rest)

/-- Append digits to a significand as long as it stays below `2 ^ 64`; the digits that remain are
counted. -/
def appendDigits (significand : Nat) : (digits : Text) → Nat × Nat
  | [] => (significand, 0)
  | digit :: rest =>
      let longer := significand * 10 + Decimal.digitValue digit
      if longer < UInt64.size then appendDigits longer rest else (significand, rest.length + 1)

namespace Number

/-- A number without fraction and exponent. -/
def whole (negative : Bool) (digits : Text) : Number :=
  let (significand, dropped) := appendDigits 0 digits
  if dropped ≠ 0 then .decimal negative significand dropped
  else if !negative then .natural (UInt64.ofNat significand)
  else if significand = 0 ∨ UInt64.size / 2 < significand then .decimal true significand 0
  else .negative significand

/-- A number with a fraction or an exponent. -/
def fractional (negative : Bool) (digits fraction : Text) (exponent : Int) : Number :=
  let (significand, dropped) := appendDigits 0 digits
  let (significand, unused) := appendDigits significand fraction
  .decimal negative significand (dropped - (fraction.length - unused : Nat) + exponent)

/-- Ten to a power of at most 308, in double precision. -/
def tenTo (power : Nat) : Float :=
  Float.ofScientific 1 false power

/-- Divide by a power of ten, in steps of 308 as long as something is left. -/
def divideByTens (x : Float) (power : Nat) : Float :=
  if power ≤ 308 then x / tenTo power
  else if x == 0 then x
  else divideByTens (x / tenTo 308) (power - 308)
  termination_by power

/-- **The value in double precision** of a decimal without its sign, if it is finite. -/
def toFloat? (significand : Nat) (exponent : Int) : Option Float :=
  let x := (UInt64.ofNat significand).toFloat
  match exponent with
  | .negSucc n => some (divideByTens x (n + 1))
  | .ofNat n =>
      if n ≤ 308 then
        let product := x * tenTo n
        if product.isInf then none else some product
      else if x == 0 then some x
      else none

/-- The mantissa and exponent of a finite number. -/
def toBinary (x : Float) : Shortest.Binary :=
  let bits := x.toBits.toNat
  let exponent : Nat := bits / Shortest.leastNormal % 2048
  let fraction : Nat := bits % Shortest.leastNormal
  if exponent = 0 then ⟨fraction, -1074⟩
  else ⟨fraction + Shortest.leastNormal, (exponent : Int) - 1075⟩

/-- Decimals in messages are positional from `0.00001` to below `10 ^ 16`. -/
def format : Shortest.Format :=
  ⟨-5, 15⟩

/-- **Write a decimal** in double precision, if it is finite. -/
def write? (negative : Bool) (significand : Nat) (exponent : Int) : Option Text :=
  (toFloat? significand exponent).map fun x =>
    let binary := toBinary x
    let digits := if binary.mantissa = 0 then ['0', '.', '0']
      else format.write (Shortest.digits binary)
    if negative then '-' :: digits else digits

end Number

/-- **A number that was read**, or the faults that a strict and a lenient reader find. -/
inductive Numeral where
  /-- The number is well formed. -/
  | whole (number : Number)
  /-- The number is malformed. -/
  | broken (strict lenient : Fault)
  deriving Repr

/-- A number that breaks off: for a strict reader the text may just end too early. -/
def Numeral.breakOff (following : Marked) : Numeral :=
  .broken (if following.isEmpty then .endInValue else .badNumber) .badNumber

/-- Read the exponent of a number, behind its sign. -/
def exponentDigits (negative : Bool) (digits fraction : Text) (minus : Bool) (source : Marked) :
    Numeral × Marked :=
  match spanDigits source with
  | ([], rest) => (.breakOff rest, rest)
  | (power, rest) =>
      let power : Int := Decimal.valueFrom 0 power
      (.whole (.fractional negative digits fraction (if minus then -power else power)), rest)

/-- Read what follows the digits and the fraction of a number: an exponent or nothing. -/
def exponentPart (negative : Bool) (digits : Text) (fraction? : Option Text) (source : Marked) :
    Numeral × Marked :=
  let fraction := fraction?.getD []
  match source with
  | some 'e' :: some '+' :: rest | some 'E' :: some '+' :: rest =>
      exponentDigits negative digits fraction false rest
  | some 'e' :: some '-' :: rest | some 'E' :: some '-' :: rest =>
      exponentDigits negative digits fraction true rest
  | some 'e' :: rest | some 'E' :: rest => exponentDigits negative digits fraction false rest
  | rest =>
      match fraction? with
      | none => (.whole (.whole negative digits), rest)
      | some fraction => (.whole (.fractional negative digits fraction 0), rest)

/-- Read what follows the digits of a number: a fraction, an exponent or nothing. -/
def fractionPart (negative : Bool) (digits : Text) (source : Marked) : Numeral × Marked :=
  match source with
  | some '.' :: rest =>
      match spanDigits rest with
      | ([], rest) => (.breakOff rest, rest)
      | (fraction, rest) => exponentPart negative digits (some fraction) rest
  | rest => exponentPart negative digits none rest

/-- **Read a number** from behind its sign, and the text after it.  A zero in front of other digits is
malformed. -/
def numeral (negative : Bool) (source : Marked) : Numeral × Marked :=
  match spanDigits source with
  | ([], rest) => (.breakOff rest, rest)
  | ('0' :: _ :: _, rest) => (.broken .badNumber .badNumber, rest)
  | (digits, rest) => fractionPart negative digits rest

end Lexer.Json
