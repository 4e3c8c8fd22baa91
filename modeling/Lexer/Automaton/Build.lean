import Lexer.Automaton.Basic
import Lexer.Pattern.Reduced

/-! # Building automata

Thompson's construction.  Two automata are joined by moving the nodes of the second one behind
those of the first, and every other step adds nodes and jumps at the end of a list.  The end of a
built automaton has no way out, so a new start may jump straight to it.  The numbers of the nodes
and the order of the jumps are part of what is saved, hence of the definition. -/

namespace Lexer.Automaton

/-- **The empty text**: one node that is both start and end. -/
def empty : Automaton :=
  ⟨[Node.fresh 0], 0, 0⟩

/-- The automaton of the empty text, which a sequence may start with at no cost. -/
def isEmpty (automaton : Automaton) : Bool :=
  match automaton.nodes with
  | [node] =>
      automaton.start = 0 && automaton.finish = 0 && node.jumps.isEmpty && node.edges.isEmpty
  | _ => false

/-- **One character** of a set. -/
def single (chars : CharSet) : Automaton :=
  ⟨[⟨0, [], [⟨chars, 1⟩]⟩, Node.fresh 1], 0, 1⟩

/-- Add a jump, behind those that its node has. -/
def addJump (automaton : Automaton) (source target : Nat) : Automaton :=
  { automaton with nodes := automaton.nodes.modify source (Node.addJump target) }

/-- Add a node with some jumps, behind the other nodes. -/
def addNode (automaton : Automaton) (jumps : List Nat) : Automaton :=
  { automaton with nodes := automaton.nodes ++ [⟨automaton.nodes.length, jumps, []⟩] }

/-- All nodes moved up by some positions. -/
def shift (amount : Nat) (automaton : Automaton) : Automaton :=
  ⟨automaton.nodes.map (Node.shift amount), automaton.start + amount, automaton.finish + amount⟩

/-- **A sequence** of two automata: the end of the first jumps to the start of the second. -/
def concat (left right : Automaton) : Automaton :=
  if left.isEmpty then right
  else
    let right := right.shift left.nodes.length
    addJump ⟨left.nodes ++ right.nodes, left.start, right.finish⟩ left.finish right.start

/-- **An alternation** of two automata: a new start jumps to both starts, and both ends jump to a
new end. -/
def alternate (left right : Automaton) : Automaton :=
  let right := right.shift left.nodes.length
  let both : Automaton := ⟨left.nodes ++ right.nodes, left.start, left.finish⟩
  let start := both.nodes.length
  let finish := start + 1
  let wired := ((both.addNode [left.start, right.start]).addNode []).addJump left.finish finish
  { wired.addJump right.finish finish with start, finish }

/-- **An option**: a new start jumps to the old start and straight to the end. -/
def optional (automaton : Automaton) : Automaton :=
  let start := automaton.nodes.length
  { automaton.addNode [automaton.start, automaton.finish] with start }

/-- **A repetition**: a new start jumps to the old start and to the old end; the old end jumps to a
new end and back to the old start. -/
def star (automaton : Automaton) : Automaton :=
  let start := automaton.nodes.length
  let finish := start + 1
  let wired := (automaton.addNode [automaton.start, automaton.finish]).addNode []
  { (wired.addJump automaton.finish finish).addJump automaton.finish automaton.start with
    start, finish }

/-- The automaton of some characters in a row. -/
def ofText (text : Text) : Automaton :=
  text.foldl (fun automaton c => automaton.concat (single (CharSet.single c))) empty

end Lexer.Automaton

namespace Lexer

mutual

/-- **The automaton of a reduced pattern.** -/
def Reduced.automaton : Reduced → Automaton
  | .empty => .empty
  | .literal text => .ofText text
  | .oneOf chars => .single chars
  | .optional body => body.automaton.optional
  | .star body => body.automaton.star
  | .group body => body.automaton
  | .concat parts => Reduced.concatAll .empty parts
  | .alternation [] => .empty
  | .alternation (branch :: rest) => Reduced.alternateAll branch.automaton rest

/-- An automaton followed by the automata of some parts. -/
def Reduced.concatAll (automaton : Automaton) : List Reduced → Automaton
  | [] => automaton
  | part :: rest => Reduced.concatAll (automaton.concat part.automaton) rest

/-- The alternation of an automaton and the automata of some branches, left to right. -/
def Reduced.alternateAll (automaton : Automaton) : List Reduced → Automaton
  | [] => automaton
  | branch :: rest => Reduced.alternateAll (automaton.alternate branch.automaton) rest

end

/-- **Compile a pattern** of the dialect into its automaton. -/
def Automaton.compile (pattern : Text) : Except Pattern.Fault Automaton :=
  (Pattern.parse pattern).map fun tree => tree.reduce.automaton

end Lexer
