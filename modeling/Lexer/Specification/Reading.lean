import Lexer.Specification.Basic
import Lexer.Specification.Definitions
import Lexer.Text.Blank
import Lexer.Text.Decimal
import Lexer.Text.Lines

/-! # Reading specifications

A specification is read line by line.  **Outside of rules** a line is empty, declares states (`%X`)
or token classes (`%L`), gives a definition (a name in braces and a pattern), or is the header of a
rule (a state in angle brackets and a pattern).  **A rule** goes on with a line that holds an opening
brace, the action name, any lines, and a line that holds a closing brace.  A fault is reported with
the number of its line; a rule that the text ends inside of is reported with the line of its
header. -/

namespace Lexer.Specification

/-- **Causes** why a specification is malformed. -/
inductive Cause where
  /-- A line has no place outside of rules. -/
  | unexpectedLine
  /-- The name of a definition has no closing brace. -/
  | unterminatedName
  /-- The name of a definition is empty. -/
  | emptyName
  /-- The state of a rule has no closing bracket. -/
  | unterminatedState
  /-- A reference cannot be expanded. -/
  | reference (cause : Definitions.Cause)
  /-- The line after the header of a rule is no opening brace. -/
  | missingBrace
  /-- The text ends after the header of a rule. -/
  | missingBody
  /-- A rule has no action name. -/
  | missingAction
  /-- A rule is never closed. -/
  | unclosedBody
  deriving DecidableEq, Repr

/-- **A fault** of a specification. -/
structure Fault where
  /-- The number of the line, starting with one. -/
  line : Nat
  /-- What is wrong. -/
  cause : Cause
  deriving DecidableEq, Repr

/-- The wording of a cause. -/
def Cause.wording : Cause → Text
  | .unexpectedLine => "unexpected line".toList
  | .unterminatedName => "unterminated definition name".toList
  | .emptyName => "empty definition name".toList
  | .unterminatedState => "unterminated state name".toList
  | .reference .unterminated => "unterminated reference".toList
  | .reference (.unknown name) => "unknown regular definition '".toList ++ name ++ ['\x27']
  | .missingBrace => "expected '\x7b' opening the rule".toList
  | .missingBody => "missing rule body".toList
  | .missingAction => "missing action name".toList
  | .unclosedBody => "rule body is not closed by '\x7d'".toList

/-- The message about a fault. -/
def Fault.message (fault : Fault) : Text :=
  "Malformed specification at line ".toList ++ Decimal.write fault.line ++ ": ".toList ++
    fault.cause.wording

/-- **Where reading stands** relative to the rules. -/
inductive Mode where
  /-- Outside of rules. -/
  | outside
  /-- After the header of a rule, which stands in a given line. -/
  | header (line : Nat) (state pattern : Text)
  /-- After the opening brace of a rule. -/
  | opened (line : Nat) (state pattern : Text)
  /-- After the action name of a rule; the extra lines are kept in reverse. -/
  | body (line : Nat) (state pattern action : Text) (extras : List Text)
  deriving DecidableEq, Repr

/-- **The state of reading**: the mode, the definitions so far, and what was read. -/
structure Reading where
  /-- Where reading stands. -/
  mode : Mode
  /-- The definitions made so far. -/
  definitions : Definitions
  /-- The complete parts read so far. -/
  specification : Specification
  deriving DecidableEq, Repr

namespace Reading

/-- Nothing was read. -/
def start : Reading :=
  ⟨.outside, [], .empty⟩

/-- Add some declared states. -/
def declareStates (reading : Reading) (names : List Text) : Reading :=
  { reading with
    specification :=
      { reading.specification with states := reading.specification.states ++ names } }

/-- Add some declared token classes. -/
def declareTokens (reading : Reading) (names : List Text) : Reading :=
  { reading with
    specification :=
      { reading.specification with tokens := reading.specification.tokens ++ names } }

/-- Add a definition and its line. -/
def define (reading : Reading) (name pattern line : Text) : Reading :=
  { reading with
    definitions := (name, pattern) :: reading.definitions
    specification :=
      { reading.specification with
        definitions := reading.specification.definitions ++ [line] } }

/-- Add a complete rule and leave it. -/
def addRule (reading : Reading) (rule : RuleEntry) : Reading :=
  { reading with
    mode := .outside
    specification :=
      { reading.specification with rules := reading.specification.rules ++ [rule] } }

/-- Expand a pattern with the definitions so far. -/
def expand (reading : Reading) (number : Nat) (pattern : Text) : Except Fault Text :=
  (reading.definitions.expand pattern).mapError fun cause => ⟨number, .reference cause⟩

/-- Take a definition, given its line without the brace in front. -/
def takeDefinition (reading : Reading) (number : Nat) (line rest : Text) :
    Except Fault Reading :=
  match Text.cut? '}' rest with
  | none => .error ⟨number, .unterminatedName⟩
  | some ([], _) => .error ⟨number, .emptyName⟩
  | some (name, pattern) =>
      (reading.expand number (Text.trimStart pattern)).map fun pattern =>
        reading.define name pattern line

/-- Take the header of a rule, given without the bracket in front. -/
def takeHeader (reading : Reading) (number : Nat) (rest : Text) : Except Fault Reading :=
  match Text.cut? '>' rest with
  | none => .error ⟨number, .unterminatedState⟩
  | some (state, pattern) =>
      (reading.expand number pattern).map fun pattern =>
        { reading with mode := .header number state pattern }

/-- Take a line outside of rules. -/
def takeOutside (reading : Reading) (number : Nat) (line : Text) : Except Fault Reading :=
  if Text.isEmptyLine line then .ok reading
  else
    match line with
    | '%' :: 'X' :: names => .ok (reading.declareStates (Text.words names))
    | '%' :: 'L' :: names => .ok (reading.declareTokens (Text.words names))
    | '{' :: rest => reading.takeDefinition number line rest
    | '<' :: rest => reading.takeHeader number rest
    | _ => .error ⟨number, .unexpectedLine⟩

/-- **Take one line**, given with its number. -/
def step (reading : Reading) (number : Nat) (line : Text) : Except Fault Reading :=
  match reading.mode with
  | .outside => reading.takeOutside number line
  | .header header state pattern =>
      if Text.trim line = ['{'] then .ok { reading with mode := .opened header state pattern }
      else .error ⟨number, .missingBrace⟩
  | .opened header state pattern =>
      let action := Text.trim line
      if action = ['}'] ∨ action = [] then .error ⟨number, .missingAction⟩
      else .ok { reading with mode := .body header state pattern action [] }
  | .body header state pattern action extras =>
      let extra := Text.trim line
      if extra = ['}'] then .ok (reading.addRule ⟨state, pattern, action, extras.reverse⟩)
      else .ok { reading with mode := .body header state pattern action (extra :: extras) }

/-- Take some lines, the first of which has a given number. -/
def takeLines (reading : Reading) (number : Nat) : List Text → Except Fault Reading
  | [] => .ok reading
  | line :: rest =>
      match reading.step number line with
      | .ok reading => takeLines reading (number + 1) rest
      | .error fault => .error fault

/-- The end of the text: no rule may be open. -/
def finish (reading : Reading) : Except Fault Specification :=
  match reading.mode with
  | .outside => .ok reading.specification
  | .header line _ _ => .error ⟨line, .missingBody⟩
  | .opened line _ _ => .error ⟨line, .missingAction⟩
  | .body line _ _ _ _ => .error ⟨line, .unclosedBody⟩

end Reading

/-- **Read a specification.** -/
def read (text : Text) : Except Fault Specification :=
  Reading.start.takeLines 1 (Text.lines text) >>= Reading.finish

end Lexer.Specification
