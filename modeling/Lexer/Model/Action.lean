import Lexer.Text.Basic

/-! # Actions

What a lexer does when a rule wins a match.  A rule has an ordered list of actions, exactly one of
which classifies the match as a token or as text to skip. -/

namespace Lexer

/-- **Actions** of a rule. -/
inductive Action where
  /-- Drop the matched text. -/
  | skip
  /-- Emit the matched text as a token of a class. -/
  | token (name : Text)
  /-- Go on in another state. -/
  | enter (state : Text)
  /-- Move the cursor back by some characters. -/
  | rewind (count : Nat)
  /-- Count a new line. -/
  | newLine
  deriving DecidableEq, Repr

namespace Action

/-- The action name of a rule that produces no token. -/
def noToken : Text := ['-']

/-- **The classification** that an action name asks for. -/
def classify (name : Text) : Action :=
  if name = noToken then .skip else .token name

/-- The state that an action enters. -/
def target? : Action → Option Text
  | .enter state => some state
  | _ => none

/-- The class of the token that an action emits. -/
def token? : Action → Option Text
  | .token name => some name
  | _ => none

/-- The states that some actions enter, in order. -/
def targets (actions : List Action) : List Text :=
  actions.filterMap target?

/-- The token class that the first classification among some actions names. -/
def tokenClass? (actions : List Action) : Option Text :=
  actions.findSome? token?

end Action

end Lexer
