import Lexer.Text.Escaped
import Lexer.Text.Hidden

/-! # Displayed text

Text as messages show it, in quotation marks.  Quotation marks and backslashes get a backslash in front,
the null character, tab, line feed and carriage return have escapes of their own, and every other
hidden character is shown by its code point. -/

namespace Lexer.Text

/-- One displayed character. -/
def displayChar (c : Char) : Text :=
  if c = '\x00' then ['\\', '0']
  else if c = '\t' then ['\\', 't']
  else if c = '\n' then ['\\', 'n']
  else if c = '\r' then ['\\', 'r']
  else if c = '\x22' ∨ c = '\\' then ['\\', c]
  else if isHidden c then escapeCode c
  else [c]

/-- **Displayed text.** -/
def display (text : Text) : Text :=
  '\x22' :: (text.flatMap displayChar ++ ['\x22'])

end Lexer.Text
