import Lexer.Proofs.CommandLine.Requests

/-! # Failing without damage

When a run fails, the artifact that was there before is there afterwards, or the new one is there as a whole.
**Without a model nothing is touched**: the input is read and compiled before any file is.  A model that is not
persisted spares the file that it would have replaced.  Only a drawing that cannot be opened makes a run fail
behind the artifact, which is complete by then. -/

namespace Lexer.CommandLine

open Files (Path Tree Disturbance Replaced Spared Unchanged)
open Files.Disturbed (outcome)

variable {request : Request} {standard : List UInt8} {disturbance : Disturbance}
  {before after : Tree} {text : Text} {path : Path}

/-! ## (1) What is left -/

/-- **What a request that fails leaves.** -/
inductive Leaves (request : Request) (standard : List UInt8) (before : Tree) : Fault → Tree → Prop where
  /-- There is no model, and the tree is as it was. -/
  | untouched {fault : Fault} (missing : request.modelIn before standard = .error fault) :
      Leaves request standard before fault before
  /-- The model is not persisted, and the file at the path of the artifact is as it was. -/
  | spared {model : Model} {after : Tree} (fault : Artifact.StoreFault)
      (asked : request.modelIn before standard = .ok model)
      (spared : Spared request.output before after)
      (unchanged : Unchanged request.output before after) :
      Leaves request standard before (.generation (.store fault)) after
  /-- The drawing is not opened, and the artifact is complete. -/
  | replaced {model : Model} {after : Tree} {path : Path} (fault : Files.Fault)
      (asked : request.modelIn before standard = .ok model) (wanted : request.drawing = some path)
      (replaced : Replaced request.output (Artifact.write model).bytes before after) :
      Leaves request standard before (.drawing fault) after

/-- A request whose drawing fails leaves the artifact of its model. -/
theorem Leaves.of_drawing {fault : Files.Fault} {model : Model}
    (leaves : Leaves request standard before (.drawing fault) after)
    (found : request.modelIn before standard = .ok model) :
    Replaced request.output (Artifact.write model).bytes before after := by
  cases leaves with
  | untouched missing => cases found.symm.trans missing
  | replaced _ found' _ replaced =>
      cases found.symm.trans found'
      exact replaced

/-- **A request that fails** leaves the artifact as it was, or a complete one. -/
theorem Stage.leaves {fault : Fault}
    (stage : Stage request standard disturbance before (.error fault, after)) :
    Leaves request standard before fault after := by
  cases stage with
  | missing asked => exact .untouched asked
  | unpersisted fault asked spared => exact .spared fault asked spared spared.unchanged
  | undrawn fault asked replaced wanted => exact .replaced fault asked wanted replaced

/-- Generating a lexer without a model touches nothing. -/
theorem outcome_generate_of_missing {fault : Generation.Fault}
    (missing : Generation.modelOf text = .error fault) :
    outcome (Generation.generate text path) disturbance before = (.error fault, before) := by
  rw [outcome_generate, missing]

/-- **Generating a lexer that is not persisted** leaves the file as it was. -/
theorem spared_of_generate {model : Model} {fault : Generation.Fault}
    (described : Generation.modelOf text = .ok model)
    (fails : outcome (Generation.generate text path) disturbance before = (.error fault, after)) :
    (∃ cause, fault = .store cause) ∧ Spared path before after := by
  have all := Artifact.allOrNothing_persist model path disturbance before
  rw [outcome_generate, described] at fails
  dsimp only at fails
  generalize outcome (Artifact.persist model path) disturbance before = result at all fails
  cases all with
  | replaced _ => cases fails
  | spared cause spared =>
      cases fails
      exact ⟨⟨cause, rfl⟩, spared⟩

/-- A request without a model fails and touches nothing. -/
theorem ended_of_missing {words : List Text} {fault : Fault}
    (asked : readWords words = .ok (.generate request))
    (missing : request.modelIn before standard = .error fault) :
    ended words standard disturbance before = (.failed fault, before) := by
  rw [ended_of_generate asked, outcome_carryOut, missing]
  rfl

/-- **A run that fails** failed to carry out a request. -/
theorem exists_stage_of_failure {words : List Text} {last : Outcome}
    (ends : ended words standard disturbance before = (last, after))
    (fails : last.status = 1) :
    ∃ request fault, readWords words = .ok (.generate request) ∧ last = .failed fault ∧
      Stage request standard disturbance before (.error fault, after) := by
  rcases ended_cases words standard disturbance before with
    ⟨request, asked, result, left, stage, same⟩ | ⟨other, same, -, unfailed⟩
  · cases same.symm.trans ends
    cases result with
    | ok done => cases fails
    | error fault => exact ⟨request, fault, asked, rfl, stage⟩
  · cases same.symm.trans ends
    exact absurd fails unfailed

/-- **Failing leaves no damaged artifact**, for every tree of files and directories, without links and
permissions, and under every disturbance.  Where the input cannot be read, is no text, or describes no model,
neither generating a lexer nor the program changes anything.  Where the model is not persisted, the file at the
path of the artifact is as it was, or there is still none.  And whenever the program exits with one, the artifact
is as it was, or, if the drawing was what failed, it is the complete artifact of the model.  A drawing fails only
where it is opened: whether all of it arrives is not looked at any more.  On a tree under no disturbance, these
are the programs on the tree itself. -/
theorem failure_leaves (disturbance : Disturbance) (before : Tree) :
    (∀ text path fault, Generation.modelOf text = .error fault →
      outcome (Generation.generate text path) disturbance before = (.error fault, before)) ∧
    (∀ text path model fault after, Generation.modelOf text = .ok model →
      outcome (Generation.generate text path) disturbance before = (.error fault, after) →
      (∃ cause, fault = .store cause) ∧ Spared path before after ∧ Unchanged path before after) ∧
    (∀ words request standard fault, readWords words = .ok (.generate request) →
      request.modelIn before standard = .error fault →
      ended words standard disturbance before = (.failed fault, before)) ∧
    (∀ words standard last after, ended words standard disturbance before = (last, after) →
      last.status = 1 →
      ∃ request fault, readWords words = .ok (.generate request) ∧ last = .failed fault ∧
        Leaves request standard before fault after) ∧
    (∀ text path, outcome (Generation.generate text path) .calm before =
      ((Generation.generate (m := StateM Tree) text path).run.run before).run) ∧
    ∀ words standard, ended words standard .calm before =
      ((run (m := StateM Tree) words (pure standard)).run before).run := by
  refine ⟨?_, ?_, ?_, ?_, ?_, fun words standard => ended_calm words standard before⟩
  · intro text path fault missing
    exact outcome_generate_of_missing missing
  · intro text path model fault after described fails
    have ⟨inStore, spared⟩ := spared_of_generate described fails
    exact ⟨inStore, spared, spared.unchanged⟩
  · intro words request standard fault asked missing
    exact ended_of_missing asked missing
  · intro words standard last after ends fails
    obtain ⟨request, fault, asked, same, stage⟩ := exists_stage_of_failure ends fails
    exact ⟨request, fault, asked, same, stage.leaves⟩
  · intro text path
    exact (agree_generate text path).outcome_eq before

/-- An old artifact is replaced by the new one before a drawing fails for want of its directory, and it is kept
where a directory is in the way of the temporary file. -/
theorem failure_leaves_old_or_new :
    let text : Text := "%X S\n%L A\n<S>a\n\x7b\nA\n\x7d\n".toList
    let words := ["-o".toList, "m".toList, "--dot".toList, "d/graph".toList]
    let rule : Rule := ⟨⟨[⟨0, [], [⟨.single 'a', 1⟩]⟩, ⟨1, [], []⟩], 0, 1⟩, [.token ['A']], ['a']⟩
    let model : Model := ⟨[⟨['S'], [rule]⟩], [(['S'], 0)], 0⟩
    let free : Tree := ⟨[([], .directory), ([['m']], .file [1])], []⟩
    let occupied : Tree := free.put ["m.tmp".toList] .directory
    Generation.modelOf text = .ok model ∧
      (∃ after, ended words text.bytes .calm free = (.failed (.drawing .notFound), after) ∧
        after.read ⟨['m']⟩ = .ok (Artifact.write model).bytes) ∧
      ∃ fault after, outcome (Generation.generate text ⟨['m']⟩) .calm occupied = (.error fault, after) ∧
        after.read ⟨['m']⟩ = .ok [1] := by
  intro text words rule model free occupied
  let request : Request := ⟨none, ⟨['m']⟩, some ⟨"d/graph".toList⟩⟩
  let middle := (outcome (Artifact.persist model request.output) .calm free).2
  have asked : readWords words = .ok (.generate request) := by decide +kernel
  have described : Generation.modelOf text = .ok model := by decide +kernel
  have found : request.modelIn free text.bytes = .ok model := Request.modelIn_standard rfl described
  have persisted : outcome (Artifact.persist model request.output) .calm free = (.ok (), middle) := by
    decide +kernel
  have undrawn : outcome (draw model request.drawing) .calm middle =
      (.error (.drawing .notFound), middle) := by
    decide +kernel
  have ends := run_of_persisted asked found persisted undrawn
  rw [← ended_calm] at ends
  refine ⟨described, ⟨middle, ends, ?_⟩, ?_⟩
  · obtain ⟨request', fault, asked', same, leaves⟩ :=
      (failure_leaves .calm free).2.2.2.1 _ _ _ _ ends rfl
    obtain rfl : request = request' := by
      cases asked.symm.trans asked'
      rfl
    cases same
    exact (leaves.of_drawing found).content
  · have fails : (outcome (Generation.generate text ⟨['m']⟩) .calm occupied).1 =
        .error (.store ⟨⟨['m']⟩, .file .isDirectory⟩) := by
      decide +kernel
    obtain ⟨-, -, unchanged⟩ := (failure_leaves .calm occupied).2.1 text ⟨['m']⟩ model _ _ described
      (Prod.ext fails rfl)
    exact ⟨_, _, Prod.ext fails rfl, unchanged.content [1] (by decide +kernel)⟩

end Lexer.CommandLine
