import Lexer.Text.Basic

/-! # Lines

A line ends with a line feed, or with a carriage return and a line feed; the end is no part of the
line.  The last line needs no end, and a text that ends with a line feed has no further line after
it.  A carriage return that no line feed follows is an ordinary character. -/

namespace Lexer.Text

/-- Drop the carriage return in front of a line feed. -/
def dropReturn (line : Text) : Text :=
  if line.getLast? = some '\r' then line.dropLast else line

/-- The lines of a text, given the part of the current line that was read already. -/
def linesFrom (current : Text) : Text → List Text
  | [] => if current.isEmpty then [] else [current.reverse]
  | c :: rest =>
      if c = '\n' then dropReturn current.reverse :: linesFrom [] rest
      else linesFrom (c :: current) rest

/-- **The lines** of a text, without their ends. -/
def lines (text : Text) : List Text :=
  linesFrom [] text

/-- No text has no lines. -/
@[simp] theorem lines_nil : lines [] = [] := rfl

/-- Lines up to a line feed are independent of the text after it. -/
theorem linesFrom_append (current left right : Text) :
    linesFrom current (left ++ '\n' :: right) =
      linesFrom current (left ++ ['\n']) ++ lines right := by
  induction left generalizing current with
  | nil => simp [linesFrom, lines]
  | cons c left ih =>
      by_cases feed : c = '\n'
      · simp [linesFrom, feed, ih]
      · simp [linesFrom, feed, ih]

/-- The lines of two texts, the first of which ends with a line feed. -/
theorem lines_append (left right : Text) :
    lines (left ++ '\n' :: right) = lines (left ++ ['\n']) ++ lines right :=
  linesFrom_append [] left right

end Lexer.Text
