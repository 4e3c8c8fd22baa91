import Lexer.Model.Action
import Lexer.Text.Blank
import Lexer.Text.Decimal
import Lexer.Text.Escaped

/-! # Directives

The lines below the action name of a rule.  `NOVI_REDAK` counts a new line; `VRATI_SE` takes a
number of characters to move back by; `UDJI_U_STANJE` takes the state to enter.  **Arguments** stand
in parentheses right behind the keyword, or behind a blank.  A line that is none of these is ignored;
a keyword without a usable argument is a fault. -/

namespace Lexer

namespace Directive

/-- The keyword of a new line. -/
def newLineKeyword : Text := "NOVI_REDAK".toList

/-- The keyword of a move back. -/
def rewindKeyword : Text := "VRATI_SE".toList

/-- The keyword of a change of state. -/
def enterKeyword : Text := "UDJI_U_STANJE".toList

/-- The first number that a count of characters cannot hold. -/
def countLimit : Nat := UInt64.size

/-- **Causes** why a directive is malformed. -/
inductive Cause where
  /-- A move back has no length. -/
  | missingLength
  /-- The length of a move back is no number, or too large. -/
  | notANumber (argument : Text)
  /-- A change of state has no target. -/
  | missingTarget
  deriving DecidableEq, Repr

/-- **A fault** of a directive. -/
structure Fault where
  /-- The line as it was given. -/
  line : Text
  /-- What is wrong with it. -/
  cause : Cause
  deriving DecidableEq, Repr

/-- The wording of a cause. -/
def Cause.wording : Cause → Text
  | .missingLength => "missing rewind length".toList
  | .notANumber argument => '\x27' :: argument ++ "' is not a non-negative integer".toList
  | .missingTarget => "missing target state".toList

/-- The message about a fault. -/
def Fault.message (fault : Fault) : Text :=
  "Malformed action directive '".toList ++ fault.line ++ "': ".toList ++ fault.cause.wording

/-- The text between a parenthesis that was read and the one at the end, without outer blanks. -/
def parenthesized? (rest : Text) : Option Text :=
  if rest.getLast? = some ')' then some (Text.trim rest.dropLast) else none

/-- A text that is not empty. -/
def nonempty? (text : Text) : Option Text :=
  if text.isEmpty then none else some text

/-- **The argument** behind a keyword.  Nothing is answered if the line is not this directive, in
particular if the keyword is only the start of a longer word; an empty argument is none. -/
def argument? (keyword directive : Text) : Option (Option Text) :=
  match Text.dropStart? keyword directive with
  | none => none
  | some [] => some none
  | some (c :: rest) =>
      if c = '(' then some ((parenthesized? rest).bind nonempty?)
      else if isBlank c then some (nonempty? (Text.trim rest))
      else none

/-- **A count of characters**: digits, with at most one plus sign in front, below the limit. -/
def count? (argument : Text) : Option Nat :=
  let digits := match argument with
    | '+' :: digits => digits
    | digits => digits
  match Decimal.read? digits with
  | some count => if count < countLimit then some count else none
  | none => none

/-- **Read a line**: its action, or nothing if the line is no directive. -/
def read (line : Text) : Except Fault (Option Action) :=
  let directive := Text.trim line
  if directive = newLineKeyword then .ok (some .newLine)
  else
    match argument? rewindKeyword directive with
    | some none => .error ⟨line, .missingLength⟩
    | some (some argument) =>
        match count? argument with
        | some count => .ok (some (.rewind count))
        | none => .error ⟨line, .notANumber argument⟩
    | none =>
        match argument? enterKeyword directive with
        | some none => .error ⟨line, .missingTarget⟩
        | some (some argument) => .ok (some (.enter argument))
        | none => .ok none

/-- The remark on a line that is no directive. -/
def ignored (line : Text) : Text :=
  "Ignoring extra parameter line '".toList ++ Text.escape line ++ ['\x27']

end Directive

namespace Action

/-- Add the action of a line: a move back goes in front of all others, any other one behind. -/
def place (actions : List Action) : Option Action → List Action
  | some (.rewind count) => .rewind count :: actions
  | some action => actions ++ [action]
  | none => actions

/-- **Compose the actions** of a rule from its action name and the lines below it, of which the
first malformed one is the fault. -/
def compose (name : Text) (lines : List Text) : Except Directive.Fault (List Action) :=
  lines.foldlM (fun actions line => (Directive.read line).map (place actions)) [classify name]

end Action

end Lexer
