import Lexer.Artifact.Persistence
import Lexer.Proofs.Files.Replacing
import Lexer.Proofs.Invariant

/-! # Persisting models

A model is persisted by replacing a file with its artifact, so that persisting is all or nothing as replacing a
file is.  What is persisted can be loaded again: the file holds the artifact, and the artifact is read back as
the model. -/

namespace Lexer.Artifact

open Files (Path Tree Disturbance Disturbed AllOrNothing Replaced)

/-- **Loading** from a file reads its content as an artifact. -/
theorem run_load_of_read {tree : Tree} {path : Path} {bytes : List UInt8}
    (content : tree.read path = .ok bytes) :
    (load (m := StateM Tree) path).run.run tree =
      ((read (Marked.ofBytes bytes)).mapError fun fault => ⟨path, .artifact fault⟩, tree) := by
  rw [load]
  change (ExceptT.bindCont _
    ((tree.read path).mapError fun fault => (⟨path, .ofRead fault⟩ : StoreFault)) :
      StateM Tree (Except StoreFault Model)) tree = _
  rw [content]
  dsimp only [Except.mapError, ExceptT.bindCont]
  cases read (Marked.ofBytes bytes) with
  | ok model => rfl
  | error fault => rfl

/-- **A model is loaded** from a file that holds an artifact of it. -/
theorem load_of_read {tree : Tree} {path : Path} {bytes : List UInt8} {model : Model}
    (content : tree.read path = .ok bytes) (known : read (Marked.ofBytes bytes) = .ok model) :
    (load (m := StateM Tree) path).run.run tree = (.ok model, tree) := by
  rw [run_load_of_read content, known]
  rfl

/-- Persisting is the same on an undisturbed tree. -/
theorem agree_persist (model : Model) (path : Path) :
    Disturbed.Agree (persist model path) (persist model path) :=
  (Disturbed.agree_replace path (write model).bytes).adapt _

/-- Persisting replaces a file or spares it, under every disturbance. -/
theorem allOrNothing_persist (model : Model) (path : Path) (disturbance : Disturbance)
    (before : Tree) : AllOrNothing path (write model).bytes before
      (Disturbed.outcome (persist model path) disturbance before) := by
  rw [persist, Disturbed.outcome_adapt]
  exact (Files.allOrNothing_replace disturbance before path _).mapError _

/-- **Persisting is all or nothing** for every tree of files and directories, without links and permissions, and
under every disturbance: whatever else goes wrong while directories are made and a file is opened, written and
renamed, while removing a file is refused for what the tree holds only.  Either the file at the path holds the
text of the artifact and there is no temporary file, or there is a fault, all files but one at the temporary
sibling are as they were, there is no new file and none at the temporary sibling.  Nothing else changes but that
directories that enclose the path are made.  If nothing else goes wrong, a model is persisted at every path that
is ready, and a model that was reached, with numbers of 64 bits, is loaded again from where it was persisted. -/
theorem persist_all_or_nothing (model : Model) (path : Path) (before : Tree) :
    AllOrNothing path (write model).bytes before
      ((persist (m := StateM Tree) model path).run.run before) ∧
    (∀ disturbance, AllOrNothing path (write model).bytes before
      (Disturbed.outcome (persist model path) disturbance before)) ∧
    (before.Ready path → ((persist (m := StateM Tree) model path).run.run before).1 = .ok ()) ∧
    (model.Reached → model.Words → ∀ after, Replaced path (write model).bytes before after →
      (load (m := StateM Tree) path).run.run after = (.ok model, after)) := by
  have calm := (agree_persist model path).outcome_eq before
  refine ⟨?_, fun disturbance => allOrNothing_persist model path disturbance before, fun ready => ?_,
    fun reached words after replaced => ?_⟩
  · have all := allOrNothing_persist model path .calm before
    rw [calm] at all
    exact all
  · have done := Files.outcome_replace_of_ready ready (write model).bytes
    refine (congrArg Prod.fst calm).symm.trans ?_
    rw [persist, Disturbed.outcome_adapt, done]
    rfl
  · exact load_of_read replaced.content (read_write_of_consistent reached.consistent words)

/-- A model is persisted at a path that is ready, and it replaces an old file behind a directory that is made
on the way; it does not replace a directory, whose temporary sibling was in use; and it does not replace a file
if writing is broken off. -/
theorem persist_all_or_nothing_occupied :
    let entry : RuleEntry := ⟨['S'], ['a'], ['-'], []⟩
    let rule : Rule := ⟨⟨[⟨0, [], [⟨.single 'a', 1⟩]⟩, ⟨1, [], []⟩], 0, 1⟩, [.skip], ['a']⟩
    let model : Model := ⟨[⟨['S'], [rule]⟩], [(['S'], 0)], 0⟩
    let before : Tree := ⟨[([], .directory), ([['m']], .file [1]), ([['n']], .directory),
      (["n.tmp".toList], .file [2])], []⟩
    let full : Disturbance := ⟨fun _ => none, fun _ => none,
      fun _ => some (3, .other "No space left on device (os error 28)".toList), fun _ => none⟩
    let inside : Path := ⟨"n/./m".toList⟩
    let around : Path := ⟨"d/../m".toList⟩
    let done := (persist (m := StateM Tree) model around).run.run before
    let refused := (persist (m := StateM Tree) model ⟨['n']⟩).run.run before
    let broken := Disturbed.outcome (persist model ⟨['m']⟩) full before
    Model.compile ⟨[], [['S']], [], [entry]⟩ = .ok model ∧
    (before.Ready inside ∧ ((persist (m := StateM Tree) model inside).run.run before).1 = .ok ()) ∧
    (done.1 = .ok () ∧ done.2.read around = .ok (write model).bytes ∧
      (load (m := StateM Tree) around).run.run done.2 = (.ok model, done.2)) ∧
    (refused.1 = .error ⟨⟨['n']⟩, .file .isDirectory⟩ ∧
      ∀ content, refused.2.read ⟨"n.tmp".toList⟩ ≠ .ok content) ∧
    (∃ fault, broken.1 = .error fault) ∧ broken.2.read ⟨['m']⟩ = .ok [1] := by
  intro entry rule model before full inside around done refused broken
  have built : Rule.build entry = .ok rule := by decide +kernel
  have compiled : Model.compile ⟨[], [['S']], [], [entry]⟩ = .ok model := by decide +kernel
  have words : model.Words := by
    intro state isState other isRule
    obtain rfl := List.mem_singleton.1 isState
    obtain rfl := List.mem_singleton.1 isRule
    exact Rule.words_of_build built (by decide +kernel)
  have ready : before.Ready inside := by
    refine ⟨by decide, ⟨[['m'], ['n']], ⟨[['n']], ['m'], ?_, by decide, rfl⟩, by decide +kernel⟩,
      ⟨["m.tmp".toList, ['n']], ⟨[['n']], "m.tmp".toList, ?_, by decide, rfl⟩, by decide +kernel⟩⟩
    · decide +kernel
    · decide +kernel
  have succeeds : done.1 = .ok () := by decide +kernel
  have fails : refused.1 = .error ⟨⟨['n']⟩, .file .isDirectory⟩ := by decide +kernel
  have breaks : broken.1 = .error ⟨⟨['m']⟩,
      .file (.other "No space left on device (os error 28)".toList)⟩ := by
    decide +kernel
  have persisted := (persist_all_or_nothing model inside before).2.2.1 ready
  obtain ⟨all, -, -, loads⟩ := persist_all_or_nothing model around before
  have replaced := all.of_ok succeeds
  have loaded := loads (.compiled compiled) words _ replaced
  have spared := (persist_all_or_nothing model ⟨['n']⟩ before).1.of_error fails
  have kept := ((persist_all_or_nothing model ⟨['m']⟩ before).2.1 full).of_error breaks
  refine ⟨compiled, ⟨ready, persisted⟩, ⟨succeeds, replaced.content, loaded⟩,
    ⟨fails, spared.temporary⟩, ⟨_, breaks⟩, ?_⟩
  exact kept.content [1] (by decide +kernel)

end Lexer.Artifact
