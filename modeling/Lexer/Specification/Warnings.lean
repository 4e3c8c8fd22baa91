import Lexer.Model.Directive
import Lexer.Specification.Basic

/-! # Warnings

Rules may disagree with the declarations of their specification.  None of this stops a compilation:
a state or token class may be declared more than once, and rules may use states and token classes
that are not declared. -/

namespace Lexer.Specification

/-- **Warnings** about the declarations of a specification. -/
inductive Warning where
  /-- A state is declared more than once. -/
  | repeatedState (name : Text)
  /-- A token class is declared more than once. -/
  | repeatedToken (name : Text)
  /-- A rule is active in a state that is not declared. -/
  | undeclaredState (pattern state : Text)
  /-- A rule produces a token of a class that is not declared. -/
  | undeclaredToken (pattern token : Text)
  /-- A rule changes to a state that is not declared. -/
  | undeclaredTarget (pattern target : Text)
  deriving DecidableEq, Repr

/-- A text in quotation marks. -/
def quoted (text : Text) : Text :=
  '\x27' :: text ++ ['\x27']

/-- The wording of a warning. -/
def Warning.wording : Warning → Text
  | .repeatedState name => "Lexer state ".toList ++ quoted name ++ " is declared more than once".toList
  | .repeatedToken name => "Token class ".toList ++ quoted name ++ " is declared more than once".toList
  | .undeclaredState pattern state =>
      "Rule ".toList ++ quoted pattern ++ " is active in undeclared state ".toList ++ quoted state
  | .undeclaredToken pattern token =>
      "Rule ".toList ++ quoted pattern ++ " declares undeclared token class ".toList ++ quoted token
  | .undeclaredTarget pattern target =>
      "Rule ".toList ++ quoted pattern ++ " changes to undeclared state ".toList ++ quoted target

/-- The names that occur a second time, in the order in which they do, given those in front. -/
def repeatedAfter (earlier : List Text) : List Text → List Text
  | [] => []
  | name :: rest =>
      if earlier.count name = 1 then name :: repeatedAfter (name :: earlier) rest
      else repeatedAfter (name :: earlier) rest

/-- **Repeated names**, each once, in the order of their second occurrences. -/
def repeatedNames (names : List Text) : List Text :=
  repeatedAfter [] names

/-- The states that the well-formed directives among some lines enter. -/
def targetsOf (extras : List Text) : List Text :=
  extras.filterMap fun line =>
    match Directive.read line with
    | .ok (some action) => action.target?
    | _ => none

/-- The warnings about one rule. -/
def ruleWarnings (specification : Specification) (rule : RuleEntry) : List Warning :=
  (if rule.state ∈ specification.states then []
    else [.undeclaredState rule.pattern rule.state]) ++
  (if rule.action = Action.noToken ∨ rule.action ∈ specification.tokens then []
    else [.undeclaredToken rule.pattern rule.action]) ++
  ((targetsOf rule.extras).filter (· ∉ specification.states)).map
    (.undeclaredTarget rule.pattern)

/-- **The warnings** about a specification: repeated declarations first, then rule by rule. -/
def warnings (specification : Specification) : List Warning :=
  (repeatedNames specification.states).map .repeatedState ++
    (repeatedNames specification.tokens).map .repeatedToken ++
    specification.rules.flatMap (ruleWarnings specification)

end Lexer.Specification
