import Lexer.Text.Basic

/-! # Specifications

A lexical specification declares lexer states and token classes and gives the rules of the lexer,
each active in one state. -/

namespace Lexer

/-- **The entry of a rule** in a specification. -/
structure RuleEntry where
  /-- The state that the rule is active in. -/
  state : Text
  /-- The pattern of the rule, free of references to definitions. -/
  pattern : Text
  /-- The token class, or a dash for no token. -/
  action : Text
  /-- The lines below the action name. -/
  extras : List Text
  deriving DecidableEq, Repr

/-- **A specification.** -/
structure Specification where
  /-- The lines of the regular definitions, as they were written. -/
  definitions : List Text
  /-- The declared states; the lexer starts in the first one. -/
  states : List Text
  /-- The declared token classes. -/
  tokens : List Text
  /-- The rules. -/
  rules : List RuleEntry
  deriving DecidableEq, Repr

namespace Specification

/-- Nothing is declared. -/
def empty : Specification :=
  ⟨[], [], [], []⟩

end Specification

end Lexer
