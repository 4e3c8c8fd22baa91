import Lexer.Json.Value
import Lexer.Model.Basic

/-! # Encoding models

**The artifact** of a model is the JSON text of its states and the name of its start state.  The index
and the position of the start state are not written; they follow from the names. -/

namespace Lexer.Artifact

open Json (Value)

/-- The names of the members of artifacts. -/
def key (name : String) : Text :=
  name.toList

/-- A range of characters is a pair of strings of one character. -/
def encodeRange (range : CharRange) : Value :=
  .list [.string [range.first], .string [range.last]]

/-- The members of an edge. -/
def encodeEdge (edge : Edge) : Value :=
  .object
    [(key "chars", .list (edge.chars.ranges.toList.map encodeRange)),
      (key "target_state", .number edge.target)]

/-- The members of a node. -/
def encodeNode (node : Node) : Value :=
  .object
    [(key "state", .number node.number),
      (key "epsilon_transitions", .list (node.jumps.map .number)),
      (key "transitions", .list (node.edges.map encodeEdge))]

/-- The members of an automaton. -/
def encodeAutomaton (automaton : Automaton) : Value :=
  .object
    [(key "states", .list (automaton.nodes.map encodeNode)),
      (key "start_state", .number automaton.start),
      (key "end_state", .number automaton.finish)]

/-- An action is its name, or an object of its name and its argument. -/
def encodeAction : Action → Value
  | .skip => .string (key "Skip")
  | .newLine => .string (key "NewLine")
  | .token name => .object [(key "DeclareClass", .string name)]
  | .enter state => .object [(key "ChangeState", .string state)]
  | .rewind count => .object [(key "ComeBack", .number count)]

/-- The members of a rule. -/
def encodeRule (rule : Rule) : Value :=
  .object
    [(key "automaton", encodeAutomaton rule.automaton),
      (key "actions", .list (rule.actions.map encodeAction)),
      (key "regex", .string rule.pattern)]

/-- The members of a state. -/
def encodeState (state : State) : Value :=
  .object
    [(key "name", .string state.name), (key "rules", .list (state.rules.map encodeRule))]

/-- The members of a model. -/
def encodeModel (model : Model) : Value :=
  .object
    [(key "states", .list (model.states.map encodeState)),
      (key "start_state", .string model.startName)]

/-- **Write the artifact** of a model. -/
def write (model : Model) : Text :=
  (encodeModel model).write

end Lexer.Artifact
