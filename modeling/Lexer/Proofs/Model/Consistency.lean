import Lexer.Proofs.Matching
import Lexer.Proofs.Model.Building
import Lexer.Proofs.Model.Indexing

/-! # Consistent models

**A model is consistent** if its states are indexed, its start is a state, all targets are there, and no
automaton has a defect.  Such a model is determined by its states and the name of its start state, from which
it is restored.  Every restored model is consistent, and so is every model of a builder that got only rules
that were built: builders keep their states indexed, and compiled automata are sound. -/

namespace Lexer.Model

/-! ## (1) Nothing is missing -/

/-- No rule of a state has an automaton with a defect. -/
theorem unsoundRule?_eq_none_iff {state : Text} {rules : List Rule} :
    unsoundRule? state rules = none ↔ ∀ rule ∈ rules, rule.automaton.defect? = none := by
  induction rules with
  | nil => simp [unsoundRule?]
  | cons rule rules ih =>
      rw [unsoundRule?, List.forall_mem_cons, ← ih]
      cases rule.automaton.defect? with
      | none => simp
      | some defect => simp

/-- No rule of some states has an automaton with a defect. -/
theorem unsound?_eq_none_iff {states : List State} :
    unsound? states = none ↔
      ∀ state ∈ states, ∀ rule ∈ state.rules, rule.automaton.defect? = none := by
  induction states with
  | nil => simp [unsound?]
  | cons state states ih =>
      rw [unsound?, List.forall_mem_cons, ← ih, ← @unsoundRule?_eq_none_iff state.name]
      cases unsoundRule? state.name state.rules with
      | none => simp
      | some fault => simp

/-- The targets of a state are the states that an action of one of its rules enters. -/
theorem mem_targets_iff {state : State} {target : Text} :
    target ∈ targets state ↔ ∃ rule ∈ state.rules, .enter target ∈ rule.actions := by
  have entered : ∀ rule : Rule, target ∈ rule.targets ↔ .enter target ∈ rule.actions := by
    intro rule
    rw [Rule.targets, Action.targets, List.mem_filterMap]
    constructor
    · rintro ⟨action, member, enters⟩
      cases action with
      | enter state =>
          obtain rfl := Option.some.inj enters
          exact member
      | _ => simp [Action.target?] at enters
    · exact fun enters => ⟨_, enters, rfl⟩
  simp only [targets, List.mem_flatMap, entered]

/-- **The changes of state** of the rules of some states, each with the state that it starts from. -/
def changes (states : List State) : List (Text × Text) :=
  states.flatMap fun state => (targets state).map fun target => (state.name, target)

/-- The first target that the index does not have is the first one of all states, one after the other. -/
theorem unknownTarget?_eq_find? {index : Index} {states : List State} :
    unknownTarget? index states = (changes states).find? fun change => !index.has change.2 := by
  induction states with
  | nil => rfl
  | cons state states ih =>
      rw [unknownTarget?, changes, List.flatMap_cons, List.find?_append, List.find?_map, ← changes, ← ih]
      cases found : (targets state).find? fun target => !index.has target with
      | none => rw [Function.comp_def, found, Option.map_none, Option.none_or]
      | some target => rw [Function.comp_def, found, Option.map_some, Option.some_or]

/-- **The missing target** of indexed states is the first one that is the name of no state. -/
theorem Indexed.unknownTarget?_eq {states : List State} {index : Index}
    (indexed : Indexed states index) :
    unknownTarget? index states =
      (changes states).find? fun change => change.2 ∉ states.map State.name := by
  rw [unknownTarget?_eq_find?]
  congr
  funext change
  rw [Bool.eq_iff_iff, decide_eq_true_iff, ← indexed.has_iff, Bool.not_eq_true', Bool.not_eq_true]

/-- No rule of some states changes to a state that the index does not have. -/
theorem unknownTarget?_eq_none_iff {index : Index} {states : List State} :
    unknownTarget? index states = none ↔
      ∀ state ∈ states, ∀ target ∈ targets state, index.has target = true := by
  rw [unknownTarget?_eq_find?, changes, List.find?_eq_none]
  simp only [List.forall_mem_flatMap, List.forall_mem_map, Bool.not_eq_true', Bool.not_eq_false]

/-! ## (2) Consistent models -/

/-- **A consistent model.** -/
structure Consistent (model : Model) : Prop where
  /-- The states are indexed. -/
  indexed : Indexed model.states model.index
  /-- The start is a state. -/
  start : ∃ state, model.states[model.start]? = some state
  /-- All targets are there. -/
  targets : unknownTarget? model.index model.states = none
  /-- No automaton has a defect. -/
  sound : unsound? model.states = none

/-- What is assembled of indexed states without a defect is consistent. -/
theorem consistent_of_assemble {states : List State} {index : Index} {start : Text} {model : Model}
    (indexed : Indexed states index) (sound : unsound? states = none)
    (assembled : assemble states index start = .ok model) : model.Consistent := by
  obtain ⟨position, found, targets, rfl⟩ := assemble_eq_ok_iff.1 assembled
  obtain ⟨state, known, -⟩ := indexed.find?_eq_some_iff.1 found
  exact ⟨indexed, ⟨state, known⟩, targets, sound⟩

/-- The start of what is assembled of indexed states has the name that was asked for. -/
theorem startName_of_assemble {states : List State} {index : Index} {start : Text} {model : Model}
    (indexed : Indexed states index) (assembled : assemble states index start = .ok model) :
    model.startName = start := by
  obtain ⟨position, found, -, rfl⟩ := assemble_eq_ok_iff.1 assembled
  obtain ⟨state, known, named⟩ := indexed.find?_eq_some_iff.1 found
  rw [startName, startState?, known]
  exact named

/-- **What restoring does**: the states are indexed, no automaton has a defect, and a model is assembled. -/
theorem restore_eq_ok_iff {states : List State} {start : Text} {model : Model} :
    Model.restore states start = .ok model ↔ ∃ index, Indexed states index ∧
      unsound? states = none ∧ assemble states index start = .ok model := by
  rw [Model.restore]
  cases indexed : indexFrom [] 0 states with
  | error fault => exact ⟨nofun, fun ⟨index, known, _⟩ => nomatch indexed.symm.trans known⟩
  | ok index =>
      cases unsound? states with
      | some fault => exact ⟨nofun, fun ⟨_, _, sound, _⟩ => nomatch sound⟩
      | none =>
          rw [Except.mapError_eq_ok_iff]
          refine ⟨fun assembled => ⟨index, indexed, rfl, assembled⟩, ?_⟩
          rintro ⟨its, known, -, assembled⟩
          obtain rfl := Except.ok.inj (indexed.symm.trans known)
          exact assembled

/-- **A consistent model is restored** from its states and the name of its start state. -/
theorem Consistent.restore {model : Model} (consistent : model.Consistent) :
    Model.restore model.states model.startName = .ok model := by
  obtain ⟨state, known⟩ := consistent.start
  have name : model.startName = state.name := by
    rw [startName, startState?, known]
  -- the name of the start state leads back to its position, as names are distinct
  have found : model.index.find? model.startName = some model.start :=
    consistent.indexed.find?_eq_some_iff.2 ⟨state, known, name.symm⟩
  exact restore_eq_ok_iff.2 ⟨model.index, consistent.indexed, consistent.sound,
    assemble_eq_ok_iff.2 ⟨model.start, found, consistent.targets, rfl⟩⟩

/-- **A restored model is consistent**, and has the states that it was restored from. -/
theorem consistent_of_restore {states : List State} {start : Text} {model : Model}
    (restored : Model.restore states start = .ok model) :
    model.Consistent ∧ model.states = states := by
  obtain ⟨index, indexed, sound, assembled⟩ := restore_eq_ok_iff.1 restored
  refine ⟨consistent_of_assemble indexed sound assembled, ?_⟩
  obtain ⟨position, -, -, rfl⟩ := assemble_eq_ok_iff.1 assembled
  rfl

/-! ## (3) Models of builders -/

/-- **A builder of built rules**: its states are indexed, and every rule is built from an entry. -/
structure BuiltRules (builder : Builder) : Prop where
  /-- The states are indexed. -/
  indexed : Indexed builder.states builder.index
  /-- Every rule is built from an entry. -/
  rules : ∀ state ∈ builder.states, ∀ rule ∈ state.rules, ∃ entry, Rule.build entry = .ok rule

namespace BuiltRules

/-- A builder without rules. -/
theorem empty : BuiltRules Builder.empty where
  indexed := .nil
  rules _ member := absurd member List.not_mem_nil

/-- **A step**: one more rule that is built. -/
theorem addRule {builder : Builder} (built : BuiltRules builder) (name : Text) {rule : Rule}
    (new : ∃ entry, Rule.build entry = .ok rule) : BuiltRules (builder.addRule name rule) where
  indexed := Builder.indexed_addRule built.indexed name rule
  rules := by
    intro state member its isRule
    rcases Builder.mem_rules_addRule member isRule with ⟨old, before, earlier⟩ | rfl
    · exact built.rules old before its earlier
    · exact new

/-- **A run**: some more rules that are built. -/
theorem foldl {builder : Builder} (built : BuiltRules builder) {steps : List (Text × Rule)}
    (new : ∀ step ∈ steps, ∃ entry, Rule.build entry = .ok step.2) :
    BuiltRules (steps.foldl (fun builder step => builder.addRule step.1 step.2) builder) := by
  induction steps generalizing builder with
  | nil => exact built
  | cons step steps ih =>
      rw [List.forall_mem_cons] at new
      exact ih (built.addRule step.1 new.1) new.2

/-- A run over the entries of a specification. -/
theorem foldlM {builder last : Builder} (built : BuiltRules builder) {entries : List RuleEntry}
    (run : entries.foldlM addEntry builder = .ok last) : BuiltRules last := by
  induction entries generalizing builder with
  | nil =>
      obtain rfl := Except.ok.inj run
      exact built
  | cons entry entries ih =>
      rw [List.foldlM_cons] at run
      obtain ⟨next, added, run⟩ := Except.bind_eq_ok_iff.1 run
      obtain ⟨rule, known, rfl⟩ := addEntry_eq_ok_iff.1 added
      exact ih (built.addRule entry.state ⟨entry, known⟩) run

/-- **What such a builder makes** is consistent, and has rules that are built. -/
theorem consistent_of_assemble {builder : Builder} (built : BuiltRules builder) {start : Text}
    {model : Model} (assembled : assemble builder.states builder.index start = .ok model) :
    model.Consistent ∧
      ∀ state ∈ model.states, ∀ rule ∈ state.rules, ∃ entry, Rule.build entry = .ok rule := by
  refine ⟨Model.consistent_of_assemble built.indexed (unsound?_eq_none_iff.2 ?_) assembled, ?_⟩
  · intro state member rule isRule
    obtain ⟨entry, known⟩ := built.rules state member rule isRule
    obtain ⟨-, compiled, -⟩ := Rule.build_eq_ok_iff.1 known
    exact (Automaton.sound_of_compile compiled).defect?_eq_none
  · obtain ⟨position, -, -, rfl⟩ := assemble_eq_ok_iff.1 assembled
    exact built.rules

end BuiltRules

end Lexer.Model
