import Lexer.Text.Decimal

/-! # JSON values

The values that artifacts consist of: natural numbers, strings, lists and objects.  They are written
without any space.  In a string the quotation mark and the backslash get a backslash in front, control
characters get their short escape or their code in four hexadecimal digits, and every other character
stands as it is. -/

namespace Lexer.Json

/-- **JSON values** of artifacts. -/
inductive Value where
  /-- A natural number. -/
  | number (n : Nat)
  /-- A string. -/
  | string (text : Text)
  /-- A list. -/
  | list (items : List Value)
  /-- An object, with its members in order. -/
  | object (members : List (Text × Value))
  deriving Repr

/-- A hexadecimal digit below sixteen, in lower case. -/
def hexDigit (digit : Nat) : Char :=
  if digit < 10 then Char.ofNat ('0'.toNat + digit) else Char.ofNat ('a'.toNat + (digit - 10))

/-- **One character of a string.** -/
def writeChar (c : Char) : Text :=
  if c = '\x22' ∨ c = '\\' then ['\\', c]
  else if c = '\x08' then ['\\', 'b']
  else if c = '\x0c' then ['\\', 'f']
  else if c = '\n' then ['\\', 'n']
  else if c = '\r' then ['\\', 'r']
  else if c = '\t' then ['\\', 't']
  else if c.toNat < 0x20 then
    ['\\', 'u', '0', '0', hexDigit (c.toNat / 16), hexDigit (c.toNat % 16)]
  else [c]

/-- **A string** in quotation marks. -/
def writeString (text : Text) : Text :=
  '\x22' :: (text.flatMap writeChar ++ ['\x22'])

namespace Value

mutual

/-- **Write a value.** -/
def write : Value → Text
  | .number n => Decimal.write n
  | .string text => writeString text
  | .list items => '[' :: (writeItems items ++ [']'])
  | .object members => '{' :: (writeMembers members ++ ['}'])

/-- Write the items of a list, with a comma between any two. -/
def writeItems : List Value → Text
  | [] => []
  | [item] => item.write
  | item :: rest => item.write ++ ',' :: writeItems rest

/-- Write the members of an object, with a comma between any two. -/
def writeMembers : List (Text × Value) → Text
  | [] => []
  | [(name, value)] => writeString name ++ ':' :: value.write
  | (name, value) :: rest => writeString name ++ ':' :: (value.write ++ ',' :: writeMembers rest)

end

end Value

end Lexer.Json
