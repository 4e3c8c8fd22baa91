import Lexer.CharSet

/-! # Automata

A non-deterministic automaton is a list of nodes with a start and an end.  From a node one may
**jump** to another node without input, or follow an **edge** while consuming one character.  Nodes
refer to each other by position.  Every node also carries a number, which is its position in an
automaton that is built here and is kept as it is in one that is loaded. -/

namespace Lexer

/-- **An edge**: it consumes one character of a set. -/
structure Edge where
  /-- The characters that may be consumed. -/
  chars : CharSet
  /-- The position of the node that is reached. -/
  target : Nat
  deriving DecidableEq, Repr

/-- **A node** of an automaton. -/
structure Node where
  /-- The number of the node. -/
  number : Nat
  /-- The positions that are reached without input. -/
  jumps : List Nat
  /-- The edges that consume a character. -/
  edges : List Edge
  deriving DecidableEq, Repr

/-- **A non-deterministic automaton** with one start and one end. -/
structure Automaton where
  /-- The nodes. -/
  nodes : List Node
  /-- The position of the start. -/
  start : Nat
  /-- The position of the end. -/
  finish : Nat
  deriving DecidableEq, Repr

namespace Edge

/-- An edge in an automaton whose nodes moved up by some positions. -/
def shift (amount : Nat) (edge : Edge) : Edge :=
  { edge with target := edge.target + amount }

end Edge

namespace Node

/-- A node without jumps and edges. -/
def fresh (number : Nat) : Node :=
  ⟨number, [], []⟩

/-- A node in an automaton whose nodes moved up by some positions. -/
def shift (amount : Nat) (node : Node) : Node :=
  ⟨node.number + amount, node.jumps.map (· + amount), node.edges.map (Edge.shift amount)⟩

/-- All positions that a node leads to, by jumps first and then by edges. -/
def targets (node : Node) : List Nat :=
  node.jumps ++ node.edges.map Edge.target

/-- A node with one more jump, behind the others. -/
def addJump (target : Nat) (node : Node) : Node :=
  { node with jumps := node.jumps ++ [target] }

end Node

namespace Automaton

/-- The jumps from a position; there is none where there is no node. -/
def jumpsFrom (automaton : Automaton) (position : Nat) : List Nat :=
  match automaton.nodes[position]? with
  | some node => node.jumps
  | none => []

/-- The edges from a position; there is none where there is no node. -/
def edgesFrom (automaton : Automaton) (position : Nat) : List Edge :=
  match automaton.nodes[position]? with
  | some node => node.edges
  | none => []

end Automaton

end Lexer
