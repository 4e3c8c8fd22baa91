import Lexer.Proofs.CommandLine.Requests

/-! # Delivering what is asked for

A run that succeeds has persisted the model that its input describes and has drawn it, unless the drawing was
broken off.  The drawing is written last, to a path of its own, and nothing keeps that path from leading to the
artifact.  **If the path of the drawing does not meet that of the artifact**, both are delivered; if it does,
however it is spelled, the drawing takes the place of the artifact, which cannot be loaded any more. -/

namespace Lexer.CommandLine

open Files (Path Store Tree Disturbance Disturbed Replaced)

variable {request : Request} {standard : List UInt8} {disturbance : Disturbance}
  {before after : Tree} {model : Model}

/-! ## (1) Drawings are no artifacts -/

/-- **A drawing is no artifact**: it starts with a letter that no value starts with. -/
theorem read_drawingOf (model : Model) :
    Artifact.read (Marked.ofBytes (drawingOf model).bytes) = .error (.json .noValue) := by
  obtain ⟨rest, starts⟩ : ∃ rest, drawingOf model = 'd' :: rest := ⟨_, rfl⟩
  have absent : Json.read (Text.marked ('d' :: rest)) =
      (.absent .noValue, Text.marked ('d' :: rest)) := by
    rw [Json.read, Text.length_marked]
    rfl
  rw [Artifact.read, Marked.ofBytes_bytes, starts, absent]
  rfl

/-! ## (2) What is delivered -/

/-- **What a request leaves** in a tree, whether or not all of a drawing arrived: the model is persisted. -/
structure Persisted (request : Request) (standard : List UInt8) (before after : Tree)
    (model : Model) : Prop where
  /-- The model is the one that the text of the input describes. -/
  described : ∃ bytes, inputIn before standard request.input = .ok bytes ∧
    ∃ text, (Marked.ofBytes bytes).toText? = some text ∧ Generation.modelOf text = .ok model
  /-- The model is loaded from where it is wanted, unless its drawing is in the same place. -/
  loaded : (∀ path, request.drawing = some path → ¬ after.Meet request.output path) →
    model.Addressable →
    (Artifact.load (m := StateM Tree) request.output).run.run after = (.ok model, after)

/-- **What a request asks for**, in the tree that a run leaves. -/
structure Delivered (request : Request) (standard : List UInt8) (before after : Tree)
    (model : Model) : Prop extends Persisted request standard before after model where
  /-- The drawing of the model is read where it is wanted. -/
  drawn : ∀ path, request.drawing = some path → after.read path = .ok (drawingOf model).bytes
  /-- Nothing is loaded from where the drawing is. -/
  overdrawn : ∀ path, request.drawing = some path → after.Meet request.output path →
    (Artifact.load (m := StateM Tree) request.output).run.run after =
      (.error ⟨request.output, .artifact (.json .noValue)⟩, after)

/-- A model that a text describes is compiled from the specification that is read from the text. -/
theorem exists_compile_of_modelOf {text : Text} (described : Generation.modelOf text = .ok model) :
    ∃ specification, Specification.read text = .ok specification ∧
      Model.compile specification = .ok model := by
  rw [Generation.modelOf] at described
  split at described
  · cases described
  · next specification read =>
      exact ⟨specification, read, Except.mapError_eq_ok_iff.1 described⟩

/-- **A model that a request asks for** is loaded from a file with its artifact. -/
theorem load_of_modelIn (asked : request.modelIn before standard = .ok model)
    (addressable : model.Addressable) {path : Path}
    (content : after.read path = .ok (Artifact.write model).bytes) :
    (Artifact.load (m := StateM Tree) path).run.run after = (.ok model, after) := by
  obtain ⟨_, -, text, -, described⟩ := Request.modelIn_eq_ok_iff.1 asked
  obtain ⟨specification, -, compiled⟩ := exists_compile_of_modelOf described
  obtain ⟨builder, first, rest, run, -, assembled⟩ := Model.compile_eq_ok_iff.1 compiled
  exact Artifact.load_of_read content
    (Artifact.read_write_of_assemble (Model.BuiltRules.empty.foldlM run) assembled addressable)

/-- **A file with a drawing** is not loaded. -/
theorem load_of_drawing {path : Path} (content : after.read path = .ok (drawingOf model).bytes) :
    (Artifact.load (m := StateM Tree) path).run.run after =
      (.error ⟨path, .artifact (.json .noValue)⟩, after) := by
  rw [Artifact.run_load_of_read content, read_drawingOf]
  rfl

/-- **A request that ends well** has persisted its model. -/
theorem Stage.persisted_of_ok (stage : Stage request standard disturbance before (.ok (), after)) :
    ∃ model, Persisted request standard before after model ∧
      ((∀ path, request.drawing = some path → disturbance.writing path = none) →
        ∀ path, request.drawing = some path → after.read path = .ok (drawingOf model).bytes) := by
  cases stage with
  | @persisted model _ asked replaced undrawn =>
      refine ⟨model, ⟨Request.modelIn_eq_ok_iff.1 asked, fun _ addressable =>
        load_of_modelIn asked addressable replaced.content⟩, fun _ path wanted => ?_⟩
      cases undrawn.symm.trans wanted
  | @drawn model middle _ drawing part asked replaced wanted whole written =>
      refine ⟨model, ⟨Request.modelIn_eq_ok_iff.1 asked, fun apart addressable => ?_⟩,
        fun unbroken path wanted' => ?_⟩
      · exact load_of_modelIn asked addressable
          (Tree.read_of_write_of_not_meet written (apart drawing wanted) replaced.content)
      · obtain rfl := Option.some.inj (wanted.symm.trans wanted')
        obtain rfl := whole (unbroken drawing wanted)
        exact Tree.read_of_write written

/-- **A request that ends well** delivers what it asks for, if its drawing is not broken off. -/
theorem Stage.delivered (stage : Stage request standard disturbance before (.ok (), after)) :
    ∃ model, Persisted request standard before after model ∧
      ((∀ path, request.drawing = some path → disturbance.writing path = none) →
        Delivered request standard before after model) := by
  obtain ⟨model, persisted, drawn⟩ := stage.persisted_of_ok
  refine ⟨model, persisted, fun unbroken => { persisted with drawn := drawn unbroken, overdrawn := ?_ }⟩
  intro path wanted meet
  exact load_of_drawing (meet.read (drawn unbroken path wanted))

/-- **A run that succeeds delivers what was asked for**, for every tree of files and directories, without links
and permissions.  For a command line that asks for a lexer, the input in the tree or from the standard input is
the text of a specification that compiles to a model.  The drawing of that model is read from the path that was
given for it.  The model itself is loaded from the path of the artifact, given or not, if the path of the drawing
does not meet it; otherwise the drawing took the place of the artifact, and nothing is loaded.  Under a
disturbance the same holds, but a drawing that is broken off does not keep the run from succeeding: then only the
model is delivered.  Automata are taken to have at most `2 ^ 64` nodes, which is what their positions can
number. -/
theorem run_delivers (words : List Text) (standard : List UInt8) (before after : Tree)
    (request : Request) (asked : readWords words = .ok (.generate request)) :
    (((run (m := StateM Tree) words (pure standard)).run before).run = (.done, after) →
      ∃ model, Delivered request standard before after model) ∧
    ∀ disturbance, ended words standard disturbance before = (.done, after) →
      ∃ model, Persisted request standard before after model ∧
        ((∀ path, request.drawing = some path → disturbance.writing path = none) →
          Delivered request standard before after model) := by
  have disturbed : ∀ disturbance, ended words standard disturbance before = (.done, after) →
      ∃ model, Persisted request standard before after model ∧
        ((∀ path, request.drawing = some path → disturbance.writing path = none) →
          Delivered request standard before after model) := by
    intro disturbance succeeds
    have stage := stage_carryOut request standard disturbance before
    rw [ended_of_generate asked] at succeeds
    generalize Disturbed.outcome (carryOut request (pure standard)) disturbance before = result
      at stage succeeds
    rcases result with ⟨fault | _, left⟩
    · cases succeeds
    · cases succeeds
      exact stage.delivered
  refine ⟨fun succeeds => ?_, disturbed⟩
  rw [← ended_calm] at succeeds
  obtain ⟨model, -, delivered⟩ := disturbed .calm succeeds
  exact ⟨model, delivered fun _ _ => rfl⟩

/-- A drawing beside an artifact that has its place by default, in a directory that is made. -/
theorem run_delivers_beside :
    let text : Text := "%X S\n%L A\n<S>a\n\x7b\nA\n\x7d\n".toList
    let words := ["--dot".toList, "graph".toList]
    let request : Request := ⟨none, Choices.defaultOutput, some ⟨"graph".toList⟩⟩
    let rule : Rule := ⟨⟨[⟨0, [], [⟨.single 'a', 1⟩]⟩, ⟨1, [], []⟩], 0, 1⟩, [.token ['A']], ['a']⟩
    let model : Model := ⟨[⟨['S'], [rule]⟩], [(['S'], 0)], 0⟩
    readWords words = .ok (.generate request) ∧ Generation.modelOf text = .ok model ∧
      ∃ after, ((run (m := StateM Tree) words (pure text.bytes)).run .fresh).run = (.done, after) ∧
        after.read ⟨"graph".toList⟩ = .ok (drawingOf model).bytes ∧
        (Artifact.load (m := StateM Tree) Choices.defaultOutput).run.run after = (.ok model, after) := by
  intro text words request rule model
  let middle := (Disturbed.outcome (Artifact.persist model request.output) .calm .fresh).2
  let after := (Disturbed.outcome (draw model request.drawing) .calm middle).2
  have asked : readWords words = .ok (.generate request) := by decide +kernel
  have described : Generation.modelOf text = .ok model := by decide +kernel
  have found : request.modelIn .fresh text.bytes = .ok model := Request.modelIn_standard rfl described
  have persisted : Disturbed.outcome (Artifact.persist model request.output) .calm .fresh =
      (.ok (), middle) := by decide +kernel
  have drawn : Disturbed.outcome (draw model request.drawing) .calm middle = (.ok (), after) := by
    decide +kernel
  have succeeds := run_of_persisted asked found persisted drawn
  obtain ⟨known, delivered⟩ := (run_delivers words text.bytes .fresh after request asked).1 succeeds
  -- the model that was delivered is the one that the text describes
  obtain ⟨_, same, text', readable, known'⟩ := delivered.described
  obtain rfl := Except.ok.inj same
  rw [Marked.ofBytes_bytes, Marked.toText?_marked] at readable
  obtain rfl := Option.some.inj readable
  obtain rfl : model = known := Except.ok.inj (described.symm.trans known')
  have apart : ∀ path, request.drawing = some path → ¬ after.Meet request.output path := by
    rintro path wanted ⟨location, toOutput, toDrawing⟩
    obtain rfl := Option.some.inj wanted
    have different : after.locate request.output ≠ after.locate ⟨"graph".toList⟩ := by decide +kernel
    exact different (toOutput.trans toDrawing.symm)
  exact ⟨asked, described, after, succeeds, delivered.drawn _ rfl,
    delivered.loaded apart (by decide +kernel)⟩

/-- **A drawing in the place of the artifact**, which was asked for under another spelling of its path.  The run
succeeds, and there is a drawing, but nothing that can be loaded. -/
theorem overdrawn_of_same_place :
    let text : Text := "%X S\n%L A\n<S>a\n\x7b\nA\n\x7d\n".toList
    let words := ["-o".toList, "m".toList, "--dot".toList, "./m".toList]
    let request : Request := ⟨none, ⟨"m".toList⟩, some ⟨"./m".toList⟩⟩
    let rule : Rule := ⟨⟨[⟨0, [], [⟨.single 'a', 1⟩]⟩, ⟨1, [], []⟩], 0, 1⟩, [.token ['A']], ['a']⟩
    let model : Model := ⟨[⟨['S'], [rule]⟩], [(['S'], 0)], 0⟩
    readWords words = .ok (.generate request) ∧ Generation.modelOf text = .ok model ∧
      model.Addressable ∧
      ∃ after, ((run (m := StateM Tree) words (pure text.bytes)).run .fresh).run = (.done, after) ∧
        after.read ⟨"m".toList⟩ = .ok (drawingOf model).bytes ∧
        (Artifact.load (m := StateM Tree) ⟨"m".toList⟩).run.run after =
          (.error ⟨⟨"m".toList⟩, .artifact (.json .noValue)⟩, after) := by
  intro text words request rule model
  let middle := (Disturbed.outcome (Artifact.persist model request.output) .calm .fresh).2
  let after := (Disturbed.outcome (draw model request.drawing) .calm middle).2
  have asked : readWords words = .ok (.generate request) := by decide +kernel
  have described : Generation.modelOf text = .ok model := by decide +kernel
  have found : request.modelIn .fresh text.bytes = .ok model := Request.modelIn_standard rfl described
  have persisted : Disturbed.outcome (Artifact.persist model request.output) .calm .fresh =
      (.ok (), middle) := by decide +kernel
  have drawn : Disturbed.outcome (draw model request.drawing) .calm middle = (.ok (), after) := by
    decide +kernel
  have succeeds := run_of_persisted asked found persisted drawn
  have content : after.read ⟨"m".toList⟩ = .ok (drawingOf model).bytes := by decide +kernel
  exact ⟨asked, described, by decide +kernel, after, succeeds, content, load_of_drawing content⟩

end Lexer.CommandLine
