import Lexer.Proofs.Artifact.RoundTrip
import Lexer.Proofs.Text.ByteOrder

/-! # The invariant of models

A model comes from a builder, from a specification or from an artifact.  **All three ways establish the same
invariant**, although they check different things: a builder keeps its index along with its states and relies
on what compilation gives, while the content of an artifact is checked as a whole.  Everything that is looked
up in a model is there because of it: the start, a state by its name, and the states in the order of the bytes
of their names. -/

namespace Lexer.Model

/-! ## (1) Models and their invariant -/

/-- **The ways to a model.** -/
inductive Reached : Model → Prop where
  /-- A builder that got rules that were built, one after the other, in any states. -/
  | built {steps : List (Text × Rule)} {names : List Text} {model : Model}
      (rules : ∀ step ∈ steps, ∃ entry, Rule.build entry = .ok step.2)
      (built : (steps.foldl (fun builder step => builder.addRule step.1 step.2)
        Builder.empty).build names = .ok model) : Reached model
  /-- A specification that compiles. -/
  | compiled {specification : Specification} {model : Model}
      (compiled : compile specification = .ok model) : Reached model
  /-- An artifact that is read. -/
  | loaded {source : Marked} {model : Model} (loaded : Artifact.read source = .ok model) :
      Reached model

/-- **The invariant of a model.** -/
structure Invariant (model : Model) : Prop where
  /-- The names of the states are distinct. -/
  names : (model.states.map State.name).Nodup
  /-- The index has one entry for each state, its name with its position. -/
  index : model.index.Perm (model.states.map State.name).zipIdx
  /-- The entries of the index stand in the order of their names. -/
  ordered : model.index.Ordered
  /-- The start is the position of a state. -/
  start : model.start < model.states.length
  /-- Every state that a rule changes to is there. -/
  targets : ∀ state ∈ model.states, ∀ rule ∈ state.rules, ∀ target,
    .enter target ∈ rule.actions → target ∈ model.states.map State.name
  /-- No automaton of a rule has a defect. -/
  automata : ∀ state ∈ model.states, ∀ rule ∈ state.rules, rule.automaton.defect? = none

/-- **What is looked up in a model** is there. -/
structure Lookups (model : Model) : Prop where
  /-- The start state is the very entry that is found by its name. -/
  start : ∃ state, model.startState? = some state ∧
    model.position? state.name = some model.start ∧ model.state? state.name = some state
  /-- A state is found exactly by its name. -/
  found : ∀ name, model.state? name = model.states.find? fun state => state.name = name
  /-- Every state is listed once by name. -/
  listed : model.statesByName.Perm (model.states.map fun state => (state.name, state))
  /-- The list is in the order of the bytes of the names. -/
  ordered : model.statesByName.Pairwise fun earlier later => earlier.1.bytes < later.1.bytes
  /-- Every stored position is that of a state. -/
  inside : ∀ entry ∈ model.index, entry.2 < model.states.length

/-! ## (2) Consistent models keep the invariant -/

/-- **A consistent model** keeps the invariant. -/
theorem Consistent.invariant {model : Model} (consistent : model.Consistent) : model.Invariant where
  names := consistent.indexed.nodup
  index := consistent.indexed.perm
  ordered := consistent.indexed.ordered
  start := by
    obtain ⟨state, known⟩ := consistent.start
    exact (List.getElem?_eq_some_iff.1 known).1
  targets := by
    intro state member rule isRule target enters
    have has : model.index.has target = true :=
      unknownTarget?_eq_none_iff.1 consistent.targets state member target
        (mem_targets_iff.2 ⟨rule, isRule, enters⟩)
    by_contra missing
    rw [Index.has, consistent.indexed.find?_eq_none_iff.2 missing] at has
    exact absurd has Bool.false_ne_true
  automata := unsound?_eq_none_iff.1 consistent.sound

/-- Entries of the names of some states lead back to these states. -/
theorem filterMap_zipIdx {all before states : List State} (split : all = before ++ states) :
    ((states.map State.name).zipIdx before.length).filterMap
        (fun entry => (all[entry.2]?).map fun state => (entry.1, state)) =
      states.map fun state => (state.name, state) := by
  induction states generalizing before with
  | nil => rfl
  | cons state states ih =>
      have here : all[before.length]? = some state := by
        rw [split, List.getElem?_append_right (Nat.le_refl _), Nat.sub_self, List.getElem?_cons_zero]
      have rest := @ih (before ++ [state]) (by rw [split, List.append_assoc, List.singleton_append])
      rw [List.length_append, List.length_singleton] at rest
      rw [List.map_cons, List.map_cons, List.zipIdx_cons,
        List.filterMap_cons_some (by rw [here]; rfl), rest]

/-- **A consistent model** has what is looked up in it. -/
theorem Consistent.lookups {model : Model} (consistent : model.Consistent) : model.Lookups where
  start := by
    obtain ⟨state, known⟩ := consistent.start
    have place : model.position? state.name = some model.start :=
      consistent.indexed.find?_eq_some_iff.2 ⟨state, known, rfl⟩
    refine ⟨state, known, place, ?_⟩
    rw [state?, place, Option.bind_some, known]
  found := consistent.indexed.state?_eq
  listed := by
    have entries := consistent.indexed.perm.filterMap
      fun entry => (model.states[entry.2]?).map fun state => (entry.1, state)
    have whole := @filterMap_zipIdx model.states [] model.states rfl
    rw [List.length_nil] at whole
    rwa [whole] at entries
  ordered := by
    refine List.pairwise_filterMap.2 (consistent.indexed.ordered.imp ?_)
    intro earlier later less first isFirst second isSecond
    -- a listed state keeps the name of its entry
    obtain ⟨_, -, rfl⟩ := Option.map_eq_some_iff.1 isFirst
    obtain ⟨_, -, rfl⟩ := Option.map_eq_some_iff.1 isSecond
    exact Text.bytes_lt_bytes less
  inside := by
    intro entry member
    have isEntry := consistent.indexed.perm.mem_iff.1 member
    have inside := (List.mk_mem_zipIdx_iff_getElem?.1 isEntry)
    exact List.length_map State.name ▸ (List.getElem?_eq_some_iff.1 inside).1

/-! ## (3) Every way to a model -/

/-- A model that was not loaded is consistent, and its rules are built. -/
theorem Reached.built_or_loaded {model : Model} (reached : model.Reached) :
    (model.Consistent ∧
      ∀ state ∈ model.states, ∀ rule ∈ state.rules, ∃ entry, Rule.build entry = .ok rule) ∨
    ∃ source, Artifact.read source = .ok model := by
  cases reached with
  | @built steps names _ rules built =>
      cases names with
      | nil => exact nomatch built
      | cons first rest => exact .inl ((BuiltRules.empty.foldl rules).consistent_of_assemble built)
  | compiled compiled =>
      obtain ⟨builder, first, rest, run, -, assembled⟩ := compile_eq_ok_iff.1 compiled
      exact .inl ((BuiltRules.empty.foldlM run).consistent_of_assemble assembled)
  | loaded loaded => exact .inr ⟨_, loaded⟩

/-- **Every way** leads to a consistent model. -/
theorem Reached.consistent {model : Model} (reached : model.Reached) : model.Consistent := by
  rcases reached.built_or_loaded with ⟨consistent, -⟩ | ⟨source, loaded⟩
  · exact consistent
  · exact (Artifact.consistent_of_read loaded).1

/-- **Every way** leads to a model of words, if the nodes of its automata can be numbered. -/
theorem Reached.words {model : Model} (reached : model.Reached) (addressable : model.Addressable) :
    model.Words := by
  rcases reached.built_or_loaded with ⟨-, rules⟩ | ⟨source, loaded⟩
  · intro state member rule isRule
    obtain ⟨entry, known⟩ := rules state member rule isRule
    exact Rule.words_of_build known (addressable state member rule isRule)
  · exact (Artifact.consistent_of_read loaded).2

/-- **The invariant.**  However a model was reached, the names of its states are distinct, its index has one
entry for each of them, its start and all targets are there, and no automaton has a defect.  So the start
state is the entry that is found by its name, the states are listed once each in the order of the bytes of
their names, and no stored position is out of range. -/
theorem reached_invariant {model : Model} (reached : model.Reached) :
    model.Invariant ∧ model.Lookups :=
  ⟨reached.consistent.invariant, reached.consistent.lookups⟩

/-- Two states that change to each other, in a specification and in a builder, and two states whose names
differ in their second byte, in an artifact. -/
theorem reached_invariant_crossing :
    let first : RuleEntry := ⟨['ž'], ['a'], ['-'], ["UDJI_U_STANJE z".toList]⟩
    let second : RuleEntry := ⟨['z'], ['b'], ['B'], ["UDJI_U_STANJE(ž)".toList]⟩
    let rules : List (Text × Rule) :=
      [(['ž'], ⟨⟨[⟨0, [], [⟨.single 'a', 1⟩]⟩, ⟨1, [], []⟩], 0, 1⟩, [.skip, .enter ['z']], ['a']⟩),
        (['z'], ⟨⟨[⟨0, [], [⟨.single 'b', 1⟩]⟩, ⟨1, [], []⟩], 0, 1⟩,
          [.token ['B'], .enter ['ž']], ['b']⟩)]
    (∃ model, compile ⟨[], [['z']], [], [first, second, first]⟩ = .ok model ∧
      model.Invariant ∧ model.Lookups) ∧
    (∃ model, (rules.foldl (fun builder step => builder.addRule step.1 step.2)
        Builder.empty).build [['ž']] = .ok model ∧
      model.Invariant ∧ model.Lookups) ∧
    ∃ model, Artifact.read
        ("\x7b\"start_state\":\"č\",\"states\":[[\"č\",[]],[\"ć\",[]]]\x7d".toList.map some) =
        .ok model ∧
      model.Invariant ∧ model.Lookups := by
  intro first second rules
  have firstBuilt : Rule.build first = .ok rules[0].2 := by decide +kernel
  have secondBuilt : Rule.build second = .ok rules[1].2 := by decide +kernel
  have compiled : compile ⟨[], [['z']], [], [first, second, first]⟩ =
      .ok ⟨[⟨['ž'], [rules[0].2, rules[0].2]⟩, ⟨['z'], [rules[1].2]⟩],
        [(['z'], 1), (['ž'], 0)], 1⟩ := by
    decide +kernel
  have built : (rules.foldl (fun builder step => builder.addRule step.1 step.2)
      Builder.empty).build [['ž']] =
      .ok ⟨[⟨['ž'], [rules[0].2]⟩, ⟨['z'], [rules[1].2]⟩], [(['z'], 1), (['ž'], 0)], 0⟩ := by
    decide +kernel
  have loaded : Artifact.read
      ("\x7b\"start_state\":\"č\",\"states\":[[\"č\",[]],[\"ć\",[]]]\x7d".toList.map some) =
      .ok ⟨[⟨['č'], []⟩, ⟨['ć'], []⟩], [(['ć'], 1), (['č'], 0)], 0⟩ := by
    decide +kernel
  refine ⟨⟨_, compiled, reached_invariant (.compiled compiled)⟩,
    ⟨_, built, reached_invariant (.built ?_ built)⟩,
    ⟨_, loaded, reached_invariant (.loaded loaded)⟩⟩
  intro step member
  rcases List.mem_cons.1 member with rfl | member
  · exact ⟨first, firstBuilt⟩
  · obtain rfl := List.mem_singleton.1 member
    exact ⟨second, secondBuilt⟩

end Lexer.Model
