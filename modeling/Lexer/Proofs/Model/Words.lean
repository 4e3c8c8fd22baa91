import Lexer.Proofs.Matching
import Lexer.Proofs.Model.Building
import Lexer.Proofs.Model.Composing

/-! # Words

Positions and counts are words of 64 bits in an artifact.  **A model of words** has numbers of 64 bits only.
A rule that is built is one of words if its automaton has at most `2 ^ 64` nodes: every number of the
automaton is the position of a node, and a move back by a longer way is refused. -/

namespace Lexer

/-! ## (1) Words -/

/-- All numbers of a node have 64 bits. -/
structure Node.Words (node : Node) : Prop where
  /-- The number of the node. -/
  number : node.number < UInt64.size
  /-- The targets of its jumps. -/
  jumps : ∀ target ∈ node.jumps, target < UInt64.size
  /-- The targets of its edges. -/
  edges : ∀ edge ∈ node.edges, edge.target < UInt64.size

/-- All numbers of an automaton have 64 bits. -/
structure Automaton.Words (automaton : Automaton) : Prop where
  /-- The numbers of its nodes. -/
  nodes : ∀ node ∈ automaton.nodes, node.Words
  /-- The position of the start. -/
  start : automaton.start < UInt64.size
  /-- The position of the end. -/
  finish : automaton.finish < UInt64.size

/-- The number of an action, if it has one, has 64 bits. -/
def Action.Words : Action → Prop
  | .rewind count => count < UInt64.size
  | _ => True

/-- All numbers of a rule have 64 bits. -/
structure Rule.Words (rule : Rule) : Prop where
  /-- The numbers of its automaton. -/
  automaton : rule.automaton.Words
  /-- The numbers of its actions. -/
  actions : ∀ action ∈ rule.actions, action.Words

/-- **All numbers of a model have 64 bits.** -/
def Model.Words (model : Model) : Prop :=
  ∀ state ∈ model.states, ∀ rule ∈ state.rules, rule.Words

/-- **Addressable models**: the nodes of every automaton can be told apart by 64 bits. -/
def Model.Addressable (model : Model) : Prop :=
  ∀ state ∈ model.states, ∀ rule ∈ state.rules, rule.automaton.nodes.length ≤ UInt64.size

instance (model : Model) : Decidable model.Addressable :=
  inferInstanceAs (Decidable (∀ state ∈ model.states, ∀ rule ∈ state.rules,
    rule.automaton.nodes.length ≤ UInt64.size))

/-! ## (2) Rules that are built -/

/-- **The numbers of a sound automaton** have 64 bits if those of its nodes have. -/
theorem Automaton.Sound.words {automaton : Automaton} (sound : automaton.Sound)
    (addressable : automaton.nodes.length ≤ UInt64.size) : automaton.Words where
  nodes node member := by
    obtain ⟨position, known⟩ := List.mem_iff_getElem?.1 member
    have inside := (List.getElem?_eq_some_iff.1 known).1
    refine ⟨?_, fun target jump => ?_, fun edge leaves => ?_⟩
    · rw [sound.numbered position node known]
      exact lt_of_lt_of_le inside addressable
    · have isJump : target ∈ automaton.jumpsFrom position := by rwa [Automaton.jumpsFrom, known]
      exact lt_of_lt_of_le (sound.inRange.jumps isJump) addressable
    · have isEdge : edge ∈ automaton.edgesFrom position := by rwa [Automaton.edgesFrom, known]
      exact lt_of_lt_of_le (sound.inRange.edges isEdge) addressable
  start := lt_of_lt_of_le sound.inRange.start addressable
  finish := lt_of_lt_of_le sound.inRange.finish addressable

/-- **Composed actions** have words. -/
theorem Action.words_of_compose {name : Text} {lines : List Text} {actions : List Action}
    (composed : compose name lines = .ok actions) : ∀ action ∈ actions, action.Words := by
  intro action member
  rcases (mem_compose_iff composed).1 member with rfl | ⟨line, -, read⟩
  · rw [classify]
    split
    · trivial
    · trivial
  · rcases Directive.cases_of_read read with rfl | ⟨count, small, rfl⟩ | ⟨target, rfl⟩
    · trivial
    · exact small
    · trivial

/-- **A rule that is built** is one of words, if its nodes can be numbered. -/
theorem Rule.words_of_build {entry : RuleEntry} {rule : Rule} (built : Rule.build entry = .ok rule)
    (addressable : rule.automaton.nodes.length ≤ UInt64.size) : rule.Words := by
  obtain ⟨composed, compiled, -⟩ := Rule.build_eq_ok_iff.1 built
  exact ⟨(Automaton.sound_of_compile compiled).words addressable, Action.words_of_compose composed⟩

end Lexer
