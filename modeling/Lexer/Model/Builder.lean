import Lexer.Model.Basic

/-! # Building models

A builder collects rules by state.  A state comes into being with its first rule, so the states stand
in the order in which rules first named them, and the rules of a state in the order in which they were
added.  **Compiling** a specification adds its rules one by one and starts in the first state that is
declared. -/

namespace Lexer

/-- **A builder** of a model. -/
structure Builder where
  /-- The states that have rules. -/
  states : List State
  /-- The positions of the states by name. -/
  index : Index
  deriving DecidableEq, Repr

namespace Builder

/-- A builder without rules. -/
def empty : Builder :=
  ⟨[], []⟩

/-- **Add a rule** to a state, which comes into being if it has no rule yet. -/
def addRule (builder : Builder) (name : Text) (rule : Rule) : Builder :=
  match builder.index.find? name with
  | some position => { builder with states := builder.states.modify position (State.addRule rule) }
  | none =>
      ⟨builder.states ++ [⟨name, [rule]⟩], builder.index.insert name builder.states.length⟩

/-- The state with a name, if it has a rule. -/
def state? (builder : Builder) (name : Text) : Option State :=
  (builder.index.find? name).bind fun position => builder.states[position]?

/-- **Build the model** of the states, given the declared names. -/
def build (builder : Builder) (names : List Text) : Except Model.Fault Model :=
  match names with
  | [] => .error .noStates
  | start :: _ => Model.assemble builder.states builder.index start

end Builder

namespace Model

/-- **Causes** why a specification does not compile. -/
inductive CompileFault where
  /-- A rule cannot be built. -/
  | rule (fault : Rule.Fault)
  /-- The states make no model. -/
  | model (fault : Model.Fault)
  deriving DecidableEq, Repr

/-- Build the rule of an entry and add it to its state. -/
def addEntry (builder : Builder) (entry : RuleEntry) : Except CompileFault Builder :=
  match Rule.build entry with
  | .ok rule => .ok (builder.addRule entry.state rule)
  | .error fault => .error (.rule fault)

/-- **Compile a specification.** -/
def compile (specification : Specification) : Except CompileFault Model :=
  match specification.rules.foldlM addEntry Builder.empty with
  | .ok builder => (builder.build specification.states).mapError .model
  | .error fault => .error fault

end Model

end Lexer
