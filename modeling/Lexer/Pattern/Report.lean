import Lexer.Pattern.Parser
import Lexer.Text.Lines
import Lexer.Text.Decimal

/-! # Reports on malformed patterns

A report shows the extended form of the pattern, underlines the span of the fault, and names its
cause.  A pattern in one line is indented by four columns.  A pattern of several lines stands
between two rules and its lines are numbered; a fault that spans several lines is not underlined but
described by its first and last line and column. -/

namespace Lexer.Pattern

/-- The wording of a cause. -/
def Cause.wording : Cause → Text
  | .missingOperand => "repetition operator missing expression".toList
  | .unopenedGroup => "unopened group".toList
  | .unclosedGroup => "unclosed group".toList
  | .nestedTooDeep =>
      "exceed the maximum number of nested parentheses/brackets (".toList ++
        Decimal.write nestingLimit ++ [')']

/-- **A place** in a text of several lines; both numbers start with one. -/
structure Place where
  /-- The number of the line. -/
  line : Nat
  /-- The number of the character in its line. -/
  column : Nat
  deriving DecidableEq, Repr

/-- The place behind some text. -/
def Place.after (text : Text) : Place :=
  text.foldl
    (fun place c => if c = '\n' then ⟨place.line + 1, 1⟩ else ⟨place.line, place.column + 1⟩) ⟨1, 1⟩

/-- A character, some number of times. -/
def repeated (count : Nat) (c : Char) : Text :=
  List.replicate count c

/-- The underlining of a span in one line: blanks, then at least one caret. -/
def underlining (indent : Nat) (first last : Place) : Text :=
  repeated (indent + (first.column - 1)) ' ' ++ repeated (max 1 (last.column - first.column)) '^'

/-- A number, with blanks in front up to a width. -/
def padded (width number : Nat) : Text :=
  let digits := Decimal.write number
  repeated (width - digits.length) ' ' ++ digits

/-- The numbered lines of a pattern, with the underlining below its line. -/
def numberedLines (width : Nat) (first last : Place) : (number : Nat) → List Text → Text
  | _, [] => []
  | number, line :: rest =>
      padded width number ++ [':', ' '] ++ line ++ ['\n'] ++
        (if first.line = last.line ∧ first.line = number then
          underlining (width + 2) first last ++ ['\n'] else []) ++
        numberedLines width first last (number + 1) rest

/-- A rule above and below a pattern of several lines. -/
def rule : Text :=
  repeated 79 '~' ++ ['\n']

/-- The lines that a span over several lines covers. -/
def coverage (first last : Place) : Text :=
  "on line ".toList ++ Decimal.write first.line ++ " (column ".toList ++
    Decimal.write first.column ++ ") through line ".toList ++ Decimal.write last.line ++
    " (column ".toList ++ Decimal.write (last.column - 1) ++ ")\n".toList

/-- **The report** on a fault in the extended form of a pattern. -/
def Fault.report (fault : Fault) (pattern : Text) : Text :=
  let first := Place.after (pattern.take fault.span.start)
  let last := Place.after (pattern.take fault.span.stop)
  let shown :=
    if '\n' ∈ pattern then
      let lines := pattern.lines
      let count := if pattern.getLast? = some '\n' then lines.length + 1 else lines.length
      rule ++ numberedLines (Decimal.write count).length first last 1 lines ++ rule ++
        (if first.line = last.line then [] else coverage first last)
    else
      repeated 4 ' ' ++ pattern ++ ['\n'] ++ underlining 4 first last ++ ['\n']
  "regex parse error:\n".toList ++ shown ++ "error: ".toList ++ fault.cause.wording

end Lexer.Pattern
