import Lexer.Text.Decimal

/-! # Escaped text

Text in printable ASCII.  Tab, carriage return and line feed have escapes of their own, quotes and
the backslash get a backslash in front, and every other character outside the printable ASCII range
is written by its code point in hexadecimal. -/

namespace Lexer.Text

/-- The hexadecimal digits of a code point, in lower case. -/
def hexDigits (number : Nat) : Text :=
  Nat.toDigits 16 number

/-- The escape of a character by its code point. -/
def escapeCode (c : Char) : Text :=
  '\\' :: 'u' :: '{' :: (hexDigits c.toNat ++ ['}'])

/-- **One escaped character.** -/
def escapeChar (c : Char) : Text :=
  if c = '\t' then ['\\', 't']
  else if c = '\r' then ['\\', 'r']
  else if c = '\n' then ['\\', 'n']
  else if c = '\x27' || c = '\x22' || c = '\\' then ['\\', c]
  else if 0x20 ≤ c.toNat && c.toNat ≤ 0x7E then [c]
  else escapeCode c

/-- **Escaped text**: each character on its own. -/
def escape (text : Text) : Text :=
  text.flatMap escapeChar

/-- Escaping goes character by character. -/
@[simp] theorem escape_cons (c : Char) (text : Text) :
    escape (c :: text) = escapeChar c ++ escape text := by
  simp [escape]

/-- Escaping commutes with concatenation. -/
@[simp] theorem escape_append (left right : Text) :
    escape (left ++ right) = escape left ++ escape right := by
  simp [escape]

end Lexer.Text
