import Lexer.Model.Index
import Lexer.Model.State

/-! # Lexer models

A model is the compiled lexer: its states in the order in which rules first named them, an index of
their names, and the position of the state that the lexer starts in.  Rules refer to states by name,
so **assembling** a model checks that the start state and every state that a rule changes to is
there.  The start state is kept as a position, which makes it the very entry that the index gives for
its name. -/

namespace Lexer

/-- **A model** of a lexer. -/
structure Model where
  /-- The states. -/
  states : List State
  /-- The positions of the states by name. -/
  index : Index
  /-- The position of the start state. -/
  start : Nat
  deriving DecidableEq, Repr

namespace Model

/-- **Causes** why states make no model. -/
inductive Fault where
  /-- No state is declared. -/
  | noStates
  /-- The start state has no rules. -/
  | unknownStart (name : Text)
  /-- A rule changes to a state that is not there. -/
  | unknownTarget (state target : Text)
  deriving DecidableEq, Repr

/-- The message about a fault. -/
def Fault.message : Fault → Text
  | .noStates => "No lexer states declared".toList
  | .unknownStart name => "Unknown start state '".toList ++ name ++ ['\x27']
  | .unknownTarget state target =>
      "Rule in state '".toList ++ state ++ "' changes to unknown state '".toList ++ target ++
        ['\x27']

/-- The states that the rules of a state change to, in order. -/
def targets (state : State) : List Text :=
  state.rules.flatMap Rule.targets

/-- The first state and target of a rule that the index does not have. -/
def unknownTarget? (index : Index) : List State → Option (Text × Text)
  | [] => none
  | state :: rest =>
      match (targets state).find? fun target => !index.has target with
      | some target => some (state.name, target)
      | none => unknownTarget? index rest

/-- **Assemble a model** from its states, their index and the name of the start state. -/
def assemble (states : List State) (index : Index) (start : Text) : Except Fault Model :=
  match index.find? start with
  | none => .error (.unknownStart start)
  | some position =>
      match unknownTarget? index states with
      | some (state, target) => .error (.unknownTarget state target)
      | none => .ok ⟨states, index, position⟩

/-- The state that the lexer starts in. -/
def startState? (model : Model) : Option State :=
  model.states[model.start]?

/-- The name of the state that the lexer starts in. -/
def startName (model : Model) : Text :=
  match model.startState? with
  | some state => state.name
  | none => []

/-- The position of the state with a name. -/
def position? (model : Model) (name : Text) : Option Nat :=
  model.index.find? name

/-- **The state with a name.** -/
def state? (model : Model) (name : Text) : Option State :=
  (model.position? name).bind fun position => model.states[position]?

/-- All states with their names, in the order of the names. -/
def statesByName (model : Model) : List (Text × State) :=
  model.index.filterMap fun (name, position) =>
    (model.states[position]?).map fun state => (name, state)

end Model

end Lexer
