import Lexer.Proofs.Invariant
import Lexer.Proofs.Model.Restoring

/-! # Reloading what was built

**Compiled automata are laid out properly**, however patterns are nested.  Each part is moved behind the nodes
that are there, and each operation adds its nodes behind them, so every node carries its position, everything
that is referred to is a node, and nothing leads on from the end.  The sets of the edges are single characters or
were joined from ranges in order.  Loading asks for less, so **the check finds no defect** in what was compiled,
and a model that was saved is not refused when it is loaded. -/

namespace Lexer

/-! ## (1) The layout of an automaton -/

/-- **A laid out automaton.** -/
structure Automaton.LaidOut (automaton : Automaton) : Prop where
  /-- Every node carries its position. -/
  numbers : ∀ (position : Nat) (node : Node),
    automaton.nodes[position]? = some node → node.number = position
  /-- Everything that is referred to is a node, and the sets of the edges are ascending. -/
  usable : automaton.Usable
  /-- The end is a node from which neither a jump nor an edge leads on. -/
  exit : automaton.nodes[automaton.finish]? = some (Node.fresh automaton.finish)

/-- An automaton without a defect is usable. -/
theorem Automaton.usable_of_checked {automaton : Automaton} (checked : automaton.defect? = none) :
    automaton.Usable := by
  rwa [← defects_eq_nil_iff, ← List.head?_eq_none_iff, ← defect?_eq_head?]

/-- The end of a sound automaton is a node like a new one. -/
theorem Automaton.Sound.getElem?_finish {automaton : Automaton} (sound : automaton.Sound) :
    automaton.nodes[automaton.finish]? = some (Node.fresh automaton.finish) := by
  obtain ⟨⟨number, jumps, edges⟩, known⟩ : ∃ node, automaton.nodes[automaton.finish]? = some node :=
    ⟨_, List.getElem?_eq_getElem sound.inRange.finish⟩
  have position : number = automaton.finish := sound.numbered _ _ known
  have noJump : jumps = [] := List.eq_nil_iff_forall_not_mem.2 fun next jump =>
    sound.noExit.jumps next (mem_jumpsFrom_iff.2 ⟨_, known, jump⟩)
  have noEdge : edges = [] := List.eq_nil_iff_forall_not_mem.2 fun edge leaves =>
    sound.noExit.edges edge (mem_edgesFrom_iff.2 ⟨_, known, leaves⟩)
  rw [known, position, noJump, noEdge, Node.fresh]

/-- **A sound automaton** is laid out. -/
theorem Automaton.Sound.laidOut {automaton : Automaton} (sound : automaton.Sound) :
    automaton.LaidOut where
  numbers := sound.numbered
  usable := usable_of_checked sound.defect?_eq_none
  exit := sound.getElem?_finish

/-! ## (2) Saved models -/

/-- **Reloading.**  Every compiled automaton is laid out, and the check finds no defect in it.  A model that was
compiled, built or loaded is restored from its states and the name of its start, and so it is read back from its
artifact if the nodes of its automata can be numbered by 64 bits. -/
theorem Artifact.compiled_reloads :
    (∀ pattern automaton, Automaton.compile pattern = .ok automaton →
      automaton.LaidOut ∧ automaton.defect? = none) ∧
    ∀ model : Model, model.Reached →
      Model.restore model.states model.startName = .ok model ∧
      (model.Addressable →
        Artifact.read (Marked.ofBytes (Artifact.write model).bytes) = .ok model) := by
  refine ⟨fun pattern automaton compiled => ?_, fun model reached => ⟨?_, fun addressable => ?_⟩⟩
  · have sound := Automaton.sound_of_compile compiled
    exact ⟨sound.laidOut, sound.defect?_eq_none⟩
  · exact reached.consistent.restore
  · exact Artifact.read_write_of_consistent reached.consistent (reached.words addressable)

/-- A repetition in a repetition, an alternative that is empty and a letter of two bytes, and a state whose only
rule has this pattern. -/
theorem Artifact.compiled_reloads_nested :
    let pattern : Text := "(a(b)*|č)*c|$".toList
    (∃ automaton, Automaton.compile pattern = .ok automaton ∧
      automaton.LaidOut ∧ automaton.defect? = none) ∧
    ∃ model, Model.compile ⟨[], [['S']], [], [⟨['S'], pattern, ['-'], []⟩]⟩ = .ok model ∧
      model.Addressable ∧ Model.restore model.states model.startName = .ok model ∧
      Artifact.read (Marked.ofBytes (Artifact.write model).bytes) = .ok model := by
  intro pattern
  obtain ⟨model, compiled, addressable⟩ : ∃ model,
      Model.compile ⟨[], [['S']], [], [⟨['S'], pattern, ['-'], []⟩]⟩ = .ok model ∧
        model.Addressable := ⟨_, rfl, by decide⟩
  have ⟨restored, readBack⟩ := Artifact.compiled_reloads.2 model (.compiled compiled)
  exact ⟨⟨_, rfl, Artifact.compiled_reloads.1 pattern _ rfl⟩,
    model, compiled, addressable, restored, readBack addressable⟩

end Lexer
