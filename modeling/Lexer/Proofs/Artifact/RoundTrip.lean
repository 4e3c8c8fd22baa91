import Lexer.Proofs.Artifact.Encoding
import Lexer.Proofs.Model.Consistency

/-! # Saving and loading

A model that is consistent and whose numbers have 64 bits is read back from its artifact.  The text of the
artifact is read as the tree of the form that was written, the tree is decoded to the states and the name of
the start state, and these restore the model.  Every model of a specification or of a builder is consistent,
as is every model that was loaded. -/

namespace Lexer.Artifact

/-- **A consistent model of words** is read back from its artifact. -/
theorem read_write_of_consistent {model : Model} (consistent : model.Consistent)
    (words : model.Words) : read (Marked.ofBytes (write model).bytes) = .ok model := by
  have encodes := encodes_model words
  rw [read, Marked.ofBytes_bytes, write, Json.read_write encodes.fits]
  -- decoding gives the states and the name, which restore the model, and nothing is left
  refine Except.bind_eq_ok_iff.2 ⟨_, encodes.decoded, ?_⟩
  exact Except.bind_eq_ok_iff.2 ⟨model, Except.mapError_eq_ok_iff.2 consistent.restore, rfl⟩

/-- The model of a builder of built rules is read back. -/
theorem read_write_of_assemble {builder : Builder} (built : Model.BuiltRules builder) {start : Text}
    {model : Model} (assembled : Model.assemble builder.states builder.index start = .ok model)
    (addressable : model.Addressable) : read (Marked.ofBytes (write model).bytes) = .ok model := by
  have ⟨consistent, rules⟩ := built.consistent_of_assemble assembled
  refine read_write_of_consistent consistent fun state member rule isRule => ?_
  obtain ⟨entry, known⟩ := rules state member rule isRule
  exact Rule.words_of_build known (addressable state member rule isRule)

/-- A model that was loaded is consistent, and its numbers have 64 bits. -/
theorem consistent_of_read {source : Marked} {model : Model} (loaded : read source = .ok model) :
    model.Consistent ∧ model.Words := by
  cases parsed : Json.read source with
  | mk tree behind =>
      rw [read, parsed] at loaded
      obtain ⟨⟨states, start⟩, decoded, loaded⟩ := Except.bind_eq_ok_iff.1 loaded
      obtain ⟨restored, known, loaded⟩ := Except.bind_eq_ok_iff.1 loaded
      have ⟨consistent, same⟩ := Model.consistent_of_restore (Except.mapError_eq_ok_iff.1 known)
      -- text behind the value only makes reading fail, it does not change the model
      obtain rfl : restored = model := by
        split at loaded
        · exact Except.ok.inj loaded
        · exact nomatch loaded
      refine ⟨consistent, ?_⟩
      rw [Model.Words, same]
      exact words_of_decodes_parts ⟨_, decoded⟩

/-- **Saving and loading loses nothing.**  The model of a specification, the model of a builder that rules
were added to in any order, and a model that was loaded are read back from their artifacts as they are.
Automata that are built are taken to have at most `2 ^ 64` nodes, which is what their positions can
number. -/
theorem read_write_model :
    (∀ specification model, Model.compile specification = .ok model → model.Addressable →
      read (Marked.ofBytes (write model).bytes) = .ok model) ∧
    (∀ (steps : List (Text × Rule)) names model,
      (∀ step ∈ steps, ∃ entry, Rule.build entry = .ok step.2) →
      (steps.foldl (fun builder step => builder.addRule step.1 step.2) Builder.empty).build names =
        .ok model → model.Addressable →
      read (Marked.ofBytes (write model).bytes) = .ok model) ∧
    ∀ source model, read source = .ok model →
      read (Marked.ofBytes (write model).bytes) = .ok model := by
  refine ⟨?_, ?_, ?_⟩
  · intro specification model compiled addressable
    obtain ⟨builder, first, rest, run, -, assembled⟩ := Model.compile_eq_ok_iff.1 compiled
    exact read_write_of_assemble (Model.BuiltRules.empty.foldlM run) assembled addressable
  · intro steps names model rules built addressable
    cases names with
    | nil => exact nomatch built
    | cons first rest =>
        exact read_write_of_assemble (Model.BuiltRules.empty.foldl rules) built addressable
  · intro source model loaded
    have ⟨consistent, words⟩ := consistent_of_read loaded
    exact read_write_of_consistent consistent words

/-- A rule for a letter of two bytes that moves back by the largest count, in a specification and twice in a
builder, and an artifact whose records are lists and whose name is escaped. -/
theorem read_write_model_letter :
    let rule : Rule :=
      ⟨⟨[⟨0, [], [⟨.single 'č', 1⟩]⟩, ⟨1, [], []⟩], 0, 1⟩, [.rewind (UInt64.size - 1), .skip], ['č']⟩
    let entry : RuleEntry := ⟨['Š'], ['č'], ['-'], ["VRATI_SE(18446744073709551615)".toList]⟩
    (∃ model, Model.compile ⟨[], [['Š']], [], [entry]⟩ = .ok model ∧
      read (Marked.ofBytes (write model).bytes) = .ok model) ∧
    (∃ model, ([(['Š'], rule), (['Š'], rule)].foldl
        (fun builder step => builder.addRule step.1 step.2) Builder.empty).build [['Š']] = .ok model ∧
      read (Marked.ofBytes (write model).bytes) = .ok model) ∧
    ∃ model, read ("[[[\"\\u0160\",[]]],\"Š\"]".toList.map some) = .ok model ∧
      read (Marked.ofBytes (write model).bytes) = .ok model := by
  intro rule entry
  have built : Rule.build entry = .ok rule := by decide +kernel
  have compiled : Model.compile ⟨[], [['Š']], [], [entry]⟩ =
      .ok ⟨[⟨['Š'], [rule]⟩], [(['Š'], 0)], 0⟩ := by
    decide +kernel
  have twice : ([(['Š'], rule), (['Š'], rule)].foldl
      (fun builder step => builder.addRule step.1 step.2) Builder.empty).build [['Š']] =
      .ok ⟨[⟨['Š'], [rule, rule]⟩], [(['Š'], 0)], 0⟩ := by
    decide +kernel
  have loaded : read ("[[[\"\\u0160\",[]]],\"Š\"]".toList.map some) =
      .ok ⟨[⟨['Š'], []⟩], [(['Š'], 0)], 0⟩ := by
    decide +kernel
  refine ⟨⟨_, compiled, ?_⟩, ⟨_, twice, ?_⟩, ⟨_, loaded, ?_⟩⟩
  · exact read_write_model.1 _ _ compiled (by decide +kernel)
  · refine read_write_model.2.1 _ _ _ (fun step member => ⟨entry, ?_⟩) twice (by decide +kernel)
    obtain rfl : step = (['Š'], rule) := by simpa using member
    exact built
  · exact read_write_model.2.2 _ _ loaded

end Lexer.Artifact
