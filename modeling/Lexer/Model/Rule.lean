import Lexer.Automaton.Build
import Lexer.Automaton.Run
import Lexer.Model.Directive
import Lexer.Pattern.Report
import Lexer.Specification.Basic

/-! # Rules

A rule pairs the automaton of a pattern with the actions of a match.  Building one composes the
actions first, so a malformed directive is reported before a malformed pattern. -/

namespace Lexer

/-- **A rule** of a lexer. -/
structure Rule where
  /-- The automaton of the pattern. -/
  automaton : Automaton
  /-- The actions of a match, in order. -/
  actions : List Action
  /-- The pattern. -/
  pattern : Text
  deriving DecidableEq, Repr

namespace Rule

/-- **Causes** why a rule cannot be built. -/
inductive Fault where
  /-- A directive is malformed. -/
  | directive (fault : Directive.Fault)
  /-- The pattern is malformed. -/
  | pattern (source : Text) (fault : Pattern.Fault)
  deriving DecidableEq, Repr

/-- The message about a fault. -/
def Fault.message : Fault → Text
  | .directive fault => fault.message
  | .pattern source fault => fault.report (Pattern.extended (Symbol.scan source))

/-- **Build a rule** from its entry in a specification. -/
def build (entry : RuleEntry) : Except Fault Rule := do
  let actions ← (Action.compose entry.action entry.extras).mapError .directive
  let automaton ← (Automaton.compile entry.pattern).mapError (.pattern entry.pattern)
  return ⟨automaton, actions, entry.pattern⟩

/-- The states that a rule changes to, in the order of its actions. -/
def targets (rule : Rule) : List Text :=
  Action.targets rule.actions

/-- The token class of a rule, if it produces a token. -/
def tokenClass? (rule : Rule) : Option Text :=
  Action.tokenClass? rule.actions

end Rule

end Lexer
