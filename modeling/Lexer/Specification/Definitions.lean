import Lexer.Text.Basic

/-! # Regular definitions

Patterns that have a name.  **A reference** is the name in braces; it is replaced by the defined
pattern in parentheses, so it acts as one item whatever stands next to it.  A backslash takes the
character after it along, so an escaped brace opens no reference.  Definitions are expanded when
they are made, hence they hold no references themselves. -/

namespace Lexer

/-- **Definitions**, each a name and an expanded pattern, the latest one first. -/
abbrev Definitions := List (Text × Text)

namespace Definitions

/-- **Causes** why a text cannot be expanded. -/
inductive Cause where
  /-- A reference has no closing brace. -/
  | unterminated
  /-- No definition has the name of a reference. -/
  | unknown (name : Text)
  deriving DecidableEq, Repr

/-- The latest definition of a name. -/
def find? (definitions : Definitions) (name : Text) : Option Text :=
  definitions.lookup name

mutual

/-- **Expand the references** of a text. -/
def expand (definitions : Definitions) : Text → Except Cause Text
  | [] => .ok []
  | ['\\'] => .ok ['\\']
  | '\\' :: c :: rest => (expand definitions rest).map fun text => '\\' :: c :: text
  | '{' :: rest => reference definitions [] rest
  | c :: rest => (expand definitions rest).map fun text => c :: text

/-- Expand a reference, of which the start of the name was read, and the text after it. -/
def reference (definitions : Definitions) (name : Text) : Text → Except Cause Text
  | [] => .error .unterminated
  | '}' :: rest =>
      match definitions.find? name.reverse with
      | some pattern =>
          (expand definitions rest).map fun text => '(' :: pattern ++ ')' :: text
      | none => .error (.unknown name.reverse)
  | c :: rest => reference definitions (c :: name) rest

end

end Definitions

end Lexer
