import Lexer.Automaton.Basic
import Lexer.Text.Decimal

/-! # Checking automata

An automaton that was loaded may refer to nodes that it does not have, or hold ranges that bisection
cannot search.  A **defect** is the first such spot: the start and the end come first, then the nodes
in order, and of a node its jumps, the targets of its edges and its character sets. -/

namespace Lexer.Automaton

/-- **Defects** of an automaton. -/
inductive Defect where
  /-- The start or the end is no node. -/
  | ends (start finish count : Nat)
  /-- A jump or an edge of a node leads to no node. -/
  | target (node goal count : Nat)
  /-- An edge of a node has a set of characters that is not well formed. -/
  | chars (node : Nat)
  deriving DecidableEq, Repr

/-- The wording of a defect. -/
def Defect.wording : Defect → Text
  | .ends start finish count =>
      "start state ".toList ++ Decimal.write start ++ " or end state ".toList ++
        Decimal.write finish ++ " out of ".toList ++ Decimal.write count ++
        " automaton states".toList
  | .target node goal count =>
      "automaton state ".toList ++ Decimal.write node ++ " has a transition to ".toList ++
        Decimal.write goal ++ " out of ".toList ++ Decimal.write count ++ " states".toList
  | .chars node =>
      "automaton state ".toList ++ Decimal.write node ++
        " has a malformed character class".toList

/-- The first defect of some nodes, the first of which has a given position. -/
def nodesDefect? (count position : Nat) : List Node → Option Defect
  | [] => none
  | node :: rest =>
      match node.targets.find? fun target => count ≤ target with
      | some target => some (.target position target count)
      | none =>
          if node.edges.all fun edge => edge.chars.wellFormed then
            nodesDefect? count (position + 1) rest
          else some (.chars position)

/-- **The first defect** of an automaton. -/
def defect? (automaton : Automaton) : Option Defect :=
  let count := automaton.nodes.length
  if automaton.start < count ∧ automaton.finish < count then nodesDefect? count 0 automaton.nodes
  else some (.ends automaton.start automaton.finish count)

end Lexer.Automaton
