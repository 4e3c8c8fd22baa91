import Lexer.Model.Rule

/-! # Lexer states

A state is a mode of the lexer, with its own rules in order.  **The winner** at a point of the input
is the rule with the longest match, and the first one of those with equally long matches.  An empty
match is a match. -/

namespace Lexer

/-- **A state** of a lexer. -/
structure State where
  /-- The name of the state. -/
  name : Text
  /-- The rules, in order of declaration. -/
  rules : List Rule
  deriving DecidableEq, Repr

/-- **A match** of a rule. -/
structure Match where
  /-- The position of the rule in its state. -/
  position : Nat
  /-- The rule. -/
  rule : Rule
  /-- The number of bytes that are matched. -/
  length : Nat
  deriving DecidableEq, Repr

namespace State

/-- Add a rule behind the others. -/
def addRule (rule : Rule) (state : State) : State :=
  { state with rules := state.rules ++ [rule] }

/-- The better of the match found so far and the one of a later rule: the earlier match stays unless
the later one is longer. -/
def better (best : Option Match) (later : Match) : Match :=
  match best with
  | some earlier => if earlier.length < later.length then later else earlier
  | none => later

/-- The best match of some rules, the first of which has a given position, and an earlier one. -/
def bestFrom (input : Text) (position : Nat) (best : Option Match) : List Rule → Option Match
  | [] => best
  | rule :: rest =>
      match rule.automaton.longest input with
      | some length =>
          bestFrom input (position + 1) (some (better best ⟨position, rule, length⟩)) rest
      | none => bestFrom input (position + 1) best rest

/-- **The winner** among the rules of a state at the start of some input. -/
def winner (state : State) (input : Text) : Option Match :=
  bestFrom input 0 none state.rules

end State

/-- The longest start of a text that takes at most some bytes. -/
def Text.takeBytes (bytes : Nat) : Text → Text
  | [] => []
  | c :: rest => if c.utf8Size ≤ bytes then c :: takeBytes (bytes - c.utf8Size) rest else []

/-- The text of a match. -/
def Match.text (found : Match) (input : Text) : Text :=
  Text.takeBytes found.length input

end Lexer
