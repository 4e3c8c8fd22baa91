import Lexer.CommandLine.Program
import Lexer.Proofs.Artifact.Persisting

/-! # Requests

A request is carried out in three stages: the model that it asks for is found, it is persisted, and it is
drawn.  **A stage says how far the program came** and what became of the tree: without a model the tree is as it
was, persisting replaces a file or spares it, and only what was persisted is drawn.  What holds of every stage
holds of every run. -/

namespace Lexer.CommandLine

open Files (Path Store Tree Disturbance Disturbed Replaced Spared)
open Files.Disturbed (outcome)

variable {request : Request} {standard : List UInt8} {disturbance : Disturbance} {before after : Tree}
  {path : Path} {text : Text} {model : Model}

/-! ## (1) The model that is asked for -/

/-- **The bytes of the specification**: those of a file in a tree, or those of the standard input. -/
def inputIn (tree : Tree) (standard : List UInt8) : Option Path → Except Fault (List UInt8)
  | some path => (tree.read path).mapError .unreadable
  | none => .ok standard

/-- **The model** that the bytes of a specification describe. -/
def modelOfBytes (bytes : List UInt8) : Except Fault Model :=
  match (Marked.ofBytes bytes).toText? with
  | none => .error .notText
  | some text => (Generation.modelOf text).mapError .generation

/-- **The model that a request asks for**, in a tree and with a standard input. -/
def Request.modelIn (request : Request) (tree : Tree) (standard : List UInt8) : Except Fault Model :=
  inputIn tree standard request.input >>= modelOfBytes

/-- **A request asks for a model** if its input is the text of a specification that compiles to it. -/
theorem Request.modelIn_eq_ok_iff : request.modelIn before standard = .ok model ↔
    ∃ bytes, inputIn before standard request.input = .ok bytes ∧
      ∃ text, (Marked.ofBytes bytes).toText? = some text ∧ Generation.modelOf text = .ok model := by
  rw [modelIn, Except.bind_eq_ok_iff]
  refine exists_congr fun bytes => and_congr_right fun _ => ?_
  rw [modelOfBytes]
  cases (Marked.ofBytes bytes).toText? with
  | none => simp
  | some text => simp [Except.mapError_eq_ok_iff]

/-- The bytes of a text describe the model that the text describes. -/
theorem modelOfBytes_bytes (text : Text) :
    modelOfBytes text.bytes = (Generation.modelOf text).mapError .generation := by
  rw [modelOfBytes, Marked.ofBytes_bytes, Marked.toText?_marked]

/-- A request without an input asks for the model that the standard input describes. -/
theorem Request.modelIn_standard (standardInput : request.input = none)
    (described : Generation.modelOf text = .ok model) :
    request.modelIn before text.bytes = .ok model := by
  rw [modelIn, standardInput]
  change modelOfBytes text.bytes = _
  rw [modelOfBytes_bytes, described]
  rfl

/-! ## (2) Outcomes -/

/-- **Generating a lexer** persists the model, if there is one. -/
theorem outcome_generate (text : Text) (path : Path) :
    outcome (Generation.generate text path) disturbance before =
      match Generation.modelOf text with
      | .error fault => (.error fault, before)
      | .ok model =>
          match outcome (Artifact.persist model path) disturbance before with
          | (.error fault, after) => (.error (.store fault), after)
          | (.ok (), after) => (.ok model, after) := by
  rw [Generation.generate]
  cases Generation.modelOf text with
  | error fault => rfl
  | ok model =>
      dsimp only
      rw [Disturbed.outcome_bind, Disturbed.outcome_adapt]
      rcases outcome (Artifact.persist model path) disturbance before with ⟨_ | _, after⟩
      · rfl
      · rfl

/-- Generating a lexer is the same on an undisturbed tree. -/
theorem agree_generate (text : Text) (path : Path) :
    Disturbed.Agree (Generation.generate text path) (Generation.generate text path) := by
  rw [Generation.generate, Generation.generate]
  cases Generation.modelOf text with
  | error fault => rfl
  | ok model => exact ((Artifact.agree_persist model path).adapt _).bind fun _ => rfl

/-- Reading the input leaves the tree as it is. -/
theorem outcome_readInput (input : Option Path) :
    outcome (readInput input (pure standard)) disturbance before =
      (inputIn before standard input, before) := by
  cases input with
  | none => rfl
  | some path => rfl

/-- **Carrying out a request**: the model is found, persisted and drawn. -/
theorem outcome_carryOut (request : Request) :
    outcome (carryOut request (pure standard)) disturbance before =
      match request.modelIn before standard with
      | .error fault => (.error fault, before)
      | .ok model =>
          match outcome (Artifact.persist model request.output) disturbance before with
          | (.error fault, after) => (.error (.generation (.store fault)), after)
          | (.ok (), after) => outcome (draw model request.drawing) disturbance after := by
  rw [carryOut, Disturbed.outcome_bind, outcome_readInput, Request.modelIn]
  cases inputIn before standard request.input with
  | error fault => rfl
  | ok bytes =>
      change _ = match modelOfBytes bytes with | .error _ => _ | .ok _ => _
      rw [modelOfBytes]
      dsimp only
      cases (Marked.ofBytes bytes).toText? with
      | none => rfl
      | some text =>
          dsimp only
          rw [Disturbed.outcome_bind, Disturbed.outcome_adapt, outcome_generate]
          cases Generation.modelOf text with
          | error fault => rfl
          | ok model =>
              dsimp only [Except.mapError]
              rcases outcome (Artifact.persist model request.output) disturbance before with
                ⟨_ | _, after⟩
              · rfl
              · rfl

/-- Carrying out a request is the same on an undisturbed tree. -/
theorem agree_carryOut (request : Request) (standard : List UInt8) :
    Disturbed.Agree (carryOut request (pure standard)) (carryOut request (pure standard)) := by
  rw [carryOut, carryOut]
  refine Disturbed.Agree.bind ?_ fun bytes => ?_
  · cases request.input with
    | none => rfl
    | some path => rfl
  · cases (Marked.ofBytes bytes).toText? with
    | none => rfl
    | some text =>
        refine ((agree_generate text request.output).adapt _).bind fun model => ?_
        cases request.drawing with
        | none => rfl
        | some path => rfl

/-! ## (3) Stages -/

/-- **The stages of a request**: how it may end, and with which tree. -/
inductive Stage (request : Request) (standard : List UInt8) (disturbance : Disturbance)
    (before : Tree) : Except Fault Unit × Tree → Prop where
  /-- There is no model, and the tree is as it was. -/
  | missing {fault : Fault} (asked : request.modelIn before standard = .error fault) :
      Stage request standard disturbance before (.error fault, before)
  /-- The model is not persisted. -/
  | unpersisted {model : Model} {after : Tree} (fault : Artifact.StoreFault)
      (asked : request.modelIn before standard = .ok model)
      (spared : Spared request.output before after) :
      Stage request standard disturbance before (.error (.generation (.store fault)), after)
  /-- The model is persisted, and it is not to be drawn. -/
  | persisted {model : Model} {after : Tree} (asked : request.modelIn before standard = .ok model)
      (replaced : Replaced request.output (Artifact.write model).bytes before after)
      (undrawn : request.drawing = none) :
      Stage request standard disturbance before (.ok (), after)
  /-- The model is persisted and drawn, as a whole if writing is not broken off. -/
  | drawn {model : Model} {middle after : Tree} {path : Path} (part : List UInt8)
      (asked : request.modelIn before standard = .ok model)
      (replaced : Replaced request.output (Artifact.write model).bytes before middle)
      (wanted : request.drawing = some path)
      (whole : disturbance.writing path = none → part = (drawingOf model).bytes)
      (written : middle.write path part = .ok after) :
      Stage request standard disturbance before (.ok (), after)
  /-- The model is persisted, but the file of its drawing is not opened. -/
  | undrawn {model : Model} {after : Tree} {path : Path} (fault : Files.Fault)
      (asked : request.modelIn before standard = .ok model)
      (replaced : Replaced request.output (Artifact.write model).bytes before after)
      (wanted : request.drawing = some path) :
      Stage request standard disturbance before (.error (.drawing fault), after)

/-- **A request ends in one of its stages**, under every disturbance. -/
theorem stage_carryOut (request : Request) (standard : List UInt8) (disturbance : Disturbance)
    (before : Tree) : Stage request standard disturbance before
      (outcome (carryOut request (pure standard)) disturbance before) := by
  rw [outcome_carryOut]
  cases asked : request.modelIn before standard with
  | error fault => exact .missing asked
  | ok model =>
      have all := Artifact.allOrNothing_persist model request.output disturbance before
      dsimp only
      generalize outcome (Artifact.persist model request.output) disturbance before = result at all
      cases all with
      | spared fault spared => exact .unpersisted fault asked spared
      | @replaced middle replaced =>
          dsimp only
          cases wanted : request.drawing with
          | none => exact .persisted asked replaced wanted
          | some path =>
              rw [draw, Disturbed.outcome_adapt]
              have emitted := Disturbed.emitted_emit disturbance middle path (drawingOf model).bytes
              generalize outcome (Store.emit path (drawingOf model).bytes) disturbance middle = result
                at emitted
              cases emitted with
              | refused fault => exact .undrawn fault asked replaced wanted
              | opened part whole changed => exact .drawn part asked replaced wanted whole changed

/-! ## (4) Runs -/

/-- The outcome of a run that carried out a request. -/
def Outcome.ofResult : Except Fault Unit → Outcome
  | .ok () => .done
  | .error fault => .failed fault

/-- **A run with a request** ends as the request does. -/
theorem run_of_generate {m : Type → Type} [Monad m] [LawfulMonad m] [Store m] {words : List Text}
    (asked : readWords words = .ok (.generate request)) (standard : m (List UInt8)) :
    run words standard = Outcome.ofResult <$> (carryOut request standard).run := by
  rw [run, asked, map_eq_pure_bind]
  refine bind_congr fun result => ?_
  rcases result with _ | _
  · rfl
  · rfl

/-- **How a run ends**: its outcome, and the tree that it leaves. -/
def ended (words : List Text) (standard : List UInt8) (disturbance : Disturbance) (before : Tree) :
    Outcome × Tree :=
  (((run words (pure standard) : Disturbed Outcome).run disturbance).run before).run

/-- A run with a request has the outcome of the request, and leaves its tree. -/
theorem ended_of_generate {words : List Text} (asked : readWords words = .ok (.generate request)) :
    ended words standard disturbance before =
      (.ofResult (outcome (carryOut request (pure standard)) disturbance before).1,
        (outcome (carryOut request (pure standard)) disturbance before).2) := by
  rw [ended, run_of_generate asked]
  rfl

/-- **A run on a tree** is a run that nothing disturbs. -/
theorem ended_calm (words : List Text) (standard : List UInt8) (before : Tree) :
    ended words standard .calm before =
      ((run (m := StateM Tree) words (pure standard)).run before).run := by
  cases command : readWords words with
  | error misuse =>
      rw [ended, run, run, command]
      rfl
  | ok said =>
      cases said with
      | version =>
          rw [ended, run, run, command]
          rfl
      | help =>
          rw [ended, run, run, command]
          rfl
      | generate request =>
          rw [ended_of_generate command, (agree_carryOut request standard).outcome_eq,
            run_of_generate command]
          rfl

/-- A run on a tree that persists its model ends as drawing the model does. -/
theorem run_of_persisted {words : List Text} {middle : Tree} {result : Except Fault Unit}
    (asked : readWords words = .ok (.generate request))
    (found : request.modelIn before standard = .ok model)
    (persisted : outcome (Artifact.persist model request.output) .calm before = (.ok (), middle))
    (drawn : outcome (draw model request.drawing) .calm middle = (result, after)) :
    ((run (m := StateM Tree) words (pure standard)).run before).run = (.ofResult result, after) := by
  rw [← ended_calm, ended_of_generate asked, outcome_carryOut, found]
  dsimp only
  rw [persisted]
  dsimp only
  rw [drawn]

/-- **The ends of a run**: it ends in a stage of the request that was made, or there was none, and the tree is
as it was. -/
theorem ended_cases (words : List Text) (standard : List UInt8) (disturbance : Disturbance)
    (before : Tree) :
    (∃ request, readWords words = .ok (.generate request) ∧
      ∃ result after, Stage request standard disturbance before (result, after) ∧
        ended words standard disturbance before = (.ofResult result, after)) ∨
    ∃ other, ended words standard disturbance before = (other, before) ∧
      other ≠ .done ∧ other.status ≠ 1 := by
  cases command : readWords words with
  | error misuse =>
      refine .inr ⟨.misused misuse, ?_, Outcome.noConfusion, Nat.succ_ne_self 1⟩
      rw [ended, run, command]
      rfl
  | ok said =>
      cases said with
      | version =>
          refine .inr ⟨.answered versionText, ?_, Outcome.noConfusion, Nat.zero_ne_one⟩
          rw [ended, run, command]
          rfl
      | help =>
          refine .inr ⟨.answered helpText, ?_, Outcome.noConfusion, Nat.zero_ne_one⟩
          rw [ended, run, command]
          rfl
      | generate request =>
          exact .inl ⟨request, rfl, _, _, stage_carryOut request standard disturbance before,
            ended_of_generate command⟩

end Lexer.CommandLine
