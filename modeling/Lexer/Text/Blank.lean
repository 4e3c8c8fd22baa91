import Lexer.Text.Basic

/-! # Blanks

The blanks are the twenty-five characters with the Unicode property `White_Space`.  They separate
words, they surround what is trimmed, and a line of nothing but blanks is an empty line. -/

namespace Lexer

/-- **Blank characters**: the Unicode property `White_Space`. -/
def isBlank (c : Char) : Bool :=
  let code := c.toNat
  (0x09 ≤ code && code ≤ 0x0D) || code == 0x20 || code == 0x85 || code == 0xA0 ||
    code == 0x1680 || (0x2000 ≤ code && code ≤ 0x200A) || code == 0x2028 || code == 0x2029 ||
    code == 0x202F || code == 0x205F || code == 0x3000

namespace Text

/-- Drop the blanks at the start. -/
def trimStart (text : Text) : Text :=
  text.dropWhile isBlank

/-- Drop the blanks at the end. -/
def trimEnd (text : Text) : Text :=
  (text.reverse.dropWhile isBlank).reverse

/-- Drop the blanks at both ends. -/
def trim (text : Text) : Text :=
  trimEnd (trimStart text)

/-- A text of nothing but blanks, or of nothing at all. -/
def isEmptyLine (text : Text) : Bool :=
  text.all isBlank

/-- **Words** are the longest pieces without a blank. -/
def words (text : Text) : List Text :=
  (text.splitOnP isBlank).filter fun word => !word.isEmpty

end Text

end Lexer
