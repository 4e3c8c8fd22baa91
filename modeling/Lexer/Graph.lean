import Lexer.Model.Basic
import Lexer.Text.Escaped

/-! # State graphs

The states of a model and the changes between them, as a directed graph in the DOT language.  **A
node** stands for each state, in the order of the states; the start state stands out.  **An arrow**
stands for each change of state that a rule makes, in the order of states, rules and actions.  Names
and patterns are escaped, so that none of them ends the string that it is written into. -/

namespace Lexer

/-- **The node** of a state. -/
structure Graph.Node where
  /-- The name of the state. -/
  name : Text
  /-- The number of its rules. -/
  rules : Nat
  /-- Whether the lexer starts in the state. -/
  isStart : Bool
  deriving DecidableEq, Repr

/-- **The arrow** of a change of state. -/
structure Graph.Arrow where
  /-- The number of the node whose rule makes the change. -/
  source : Nat
  /-- The number of the node of the state that is entered. -/
  target : Nat
  /-- The pattern of the rule. -/
  pattern : Text
  deriving DecidableEq, Repr

/-- **A state graph.** -/
structure Graph where
  /-- The label of the graph. -/
  label : Text
  /-- The nodes, numbered from zero. -/
  nodes : List Graph.Node
  /-- The arrows. -/
  arrows : List Graph.Arrow
  deriving DecidableEq, Repr

namespace Graph

/-! ## (1) The graph of a model -/

/-- The nodes of some states, the first of which has a given position. -/
def nodesFrom (start position : Nat) : List State → List Node
  | [] => []
  | state :: rest =>
      ⟨state.name, state.rules.length, position = start⟩ :: nodesFrom start (position + 1) rest

/-- The arrows of the rules of the state at a position. -/
def arrowsOf (model : Model) (position : Nat) (state : State) : List Arrow :=
  state.rules.flatMap fun rule =>
    rule.targets.filterMap fun target =>
      (model.position? target).map fun reached => ⟨position, reached, rule.pattern⟩

/-- The arrows of some states, the first of which has a given position. -/
def arrowsFrom (model : Model) (position : Nat) : List State → List Arrow
  | [] => []
  | state :: rest => arrowsOf model position state ++ arrowsFrom model (position + 1) rest

/-- **The state graph** of a model. -/
def ofModel (model : Model) (label : Text) : Graph :=
  ⟨label, nodesFrom model.start 0 model.states, arrowsFrom model 0 model.states⟩

/-! ## (2) Its text -/

/-- A text as a string of the graph language; what it holds has to be escaped already. -/
def quote (text : Text) : Text :=
  '\x22' :: text ++ ['\x22']

/-- The identifier of the node with a number. -/
def identifier (number : Nat) : Text :=
  "node_".toList ++ Decimal.write number

/-- The label of a node: its name, and its number of rules in a line below. -/
def Node.label (node : Node) : Text :=
  Text.escape node.name ++ '\n' :: Decimal.write node.rules ++ " rules".toList

/-- The attributes of the node where the lexer starts. -/
def startAttributes : Text :=
  ", shape=circle, color=blue, penwidth=3".toList

/-- The line of the node with a number. -/
def Node.line (number : Nat) (node : Node) : Text :=
  "  ".toList ++ identifier number ++ " [label=".toList ++ quote node.label ++
    (if node.isStart then startAttributes else []) ++ "];\n".toList

/-- The lines of some nodes, the first of which has a given number. -/
def nodeLines (number : Nat) : List Node → Text
  | [] => []
  | node :: rest => node.line number ++ nodeLines (number + 1) rest

/-- The line of an arrow. -/
def Arrow.line (arrow : Arrow) : Text :=
  "  ".toList ++ identifier arrow.source ++ " -> ".toList ++ identifier arrow.target ++
    " [label=".toList ++ quote (Text.escape arrow.pattern) ++ "];\n".toList

/-- The line of the label of a graph, which is written as it is. -/
def labelLine (label : Text) : Text :=
  "  label=".toList ++ quote label ++ ";\n".toList

/-- **The text** of a graph: it runs from left to right, first its nodes, then its arrows. -/
def render (graph : Graph) : Text :=
  "digraph \x7b\n".toList ++ labelLine graph.label ++ "  rankdir=LR;\n".toList ++
    nodeLines 0 graph.nodes ++ graph.arrows.flatMap Arrow.line ++ "\x7d\n".toList

end Graph

end Lexer
