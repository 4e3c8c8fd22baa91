import Lexer.Automaton.Check
import Lexer.Model.Basic

/-! # Restoring models

States that come from outside make a model only if their names are distinct, their automata are
sound, and the start state and all targets are there.  The first violation in that order is
reported. -/

namespace Lexer.Model

/-- **Causes** why states from outside make no model. -/
inductive RestoreFault where
  /-- Two states have the same name. -/
  | duplicateState (name : Text)
  /-- The automaton of a rule has a defect. -/
  | unsound (pattern state : Text) (defect : Automaton.Defect)
  /-- The states make no model. -/
  | model (fault : Model.Fault)
  deriving DecidableEq, Repr

/-- The message about a fault. -/
def RestoreFault.message : RestoreFault → Text
  | .duplicateState name => "Invalid lexer model: duplicate state '".toList ++ name ++ ['\x27']
  | .unsound pattern state defect =>
      "Invalid lexer model: rule '".toList ++ Text.escape pattern ++ "' of state '".toList ++
        state ++ "': ".toList ++ defect.wording
  | .model fault => fault.message

/-- The index of some states, the first of which has a given position; the name that an earlier
state has already is a fault. -/
def indexFrom (index : Index) (position : Nat) : List State → Except RestoreFault Index
  | [] => .ok index
  | state :: rest =>
      if index.has state.name then .error (.duplicateState state.name)
      else indexFrom (index.insert state.name position) (position + 1) rest

/-- The first rule whose automaton has a defect. -/
def unsoundRule? (state : Text) : List Rule → Option RestoreFault
  | [] => none
  | rule :: rest =>
      match rule.automaton.defect? with
      | some defect => some (.unsound rule.pattern state defect)
      | none => unsoundRule? state rest

/-- The first rule of some states whose automaton has a defect. -/
def unsound? : List State → Option RestoreFault
  | [] => none
  | state :: rest =>
      match unsoundRule? state.name state.rules with
      | some fault => some fault
      | none => unsound? rest

/-- **Restore a model** from its states and the name of the start state. -/
def restore (states : List State) (start : Text) : Except RestoreFault Model :=
  match indexFrom [] 0 states with
  | .error fault => .error fault
  | .ok index =>
      match unsound? states with
      | some fault => .error fault
      | none => (assemble states index start).mapError .model

end Lexer.Model
