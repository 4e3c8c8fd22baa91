import Lexer.Model.Builder
import Lexer.Proofs.Model.Composing
import Lexer.Proofs.Outcome

/-! # What building does

Rules are built, added to a builder and assembled to a model.  Each of these steps is taken apart here once:
what it was given, and all that it did. -/

namespace Lexer

/-- **A rule that is built** has the composed actions, the compiled automaton and the pattern. -/
theorem Rule.build_eq_ok_iff {entry : RuleEntry} {rule : Rule} :
    Rule.build entry = .ok rule ↔
      Action.compose entry.action entry.extras = .ok rule.actions ∧
        Automaton.compile entry.pattern = .ok rule.automaton ∧ rule.pattern = entry.pattern := by
  rw [Rule.build, Except.bind_eq_ok_iff]
  constructor
  · rintro ⟨actions, composed, built⟩
    obtain ⟨automaton, compiled, built⟩ := Except.bind_eq_ok_iff.1 built
    obtain rfl := Except.ok.inj built
    exact ⟨Except.mapError_eq_ok_iff.1 composed, Except.mapError_eq_ok_iff.1 compiled, rfl⟩
  · rintro ⟨composed, compiled, same⟩
    refine ⟨rule.actions, Except.mapError_eq_ok_iff.2 composed, ?_⟩
    refine Except.bind_eq_ok_iff.2 ⟨rule.automaton, Except.mapError_eq_ok_iff.2 compiled, ?_⟩
    rw [← same]
    rfl

/-- **An entry that builds no rule** has a malformed directive, or else a malformed pattern. -/
theorem Rule.build_eq_error_iff {entry : RuleEntry} {fault : Rule.Fault} :
    Rule.build entry = .error fault ↔
      (∃ cause, Action.compose entry.action entry.extras = .error cause ∧ fault = .directive cause) ∨
      (∃ actions, Action.compose entry.action entry.extras = .ok actions) ∧
        ∃ cause, Automaton.compile entry.pattern = .error cause ∧
          fault = .pattern entry.pattern cause := by
  rw [Rule.build]
  cases Action.compose entry.action entry.extras with
  | error cause => simp [Except.mapError, bind, Except.bind, eq_comm]
  | ok actions =>
      cases Automaton.compile entry.pattern with
      | error cause => simp [Except.mapError, bind, Except.bind, eq_comm]
      | ok automaton => simp [Except.mapError, bind, Except.bind, pure, Except.pure]

/-- **A rule changes to the states** that its lines enter, in their order. -/
theorem Rule.targets_of_build {entry : RuleEntry} {rule : Rule}
    (built : Rule.build entry = .ok rule) :
    rule.targets = Specification.targetsOf entry.extras :=
  Action.targets_of_compose (Rule.build_eq_ok_iff.1 built).1

/-- **A rule of a builder** that got one more rule was there, or is that rule. -/
theorem Builder.mem_rules_addRule {builder : Builder} {name : Text} {new its : Rule} {state : State}
    (member : state ∈ (builder.addRule name new).states) (isRule : its ∈ state.rules) :
    (∃ old ∈ builder.states, its ∈ old.rules) ∨ its = new := by
  rw [addRule] at member
  cases found : builder.index.find? name with
  | some position =>
      rw [found] at member
      obtain ⟨offset, member⟩ := List.mem_iff_getElem?.1 member
      rw [List.getElem?_modify, Option.map_eq_map, Option.map_eq_some_iff] at member
      obtain ⟨old, known, rfl⟩ := member
      have before : old ∈ builder.states := List.mem_of_getElem? known
      split at isRule
      · rcases List.mem_append.1 isRule with earlier | last
        · exact .inl ⟨old, before, earlier⟩
        · exact .inr (List.mem_singleton.1 last)
      · exact .inl ⟨old, before, isRule⟩
  | none =>
      rw [found] at member
      rcases List.mem_append.1 member with before | last
      · exact .inl ⟨state, before, isRule⟩
      · obtain rfl := List.mem_singleton.1 last
        exact .inr (List.mem_singleton.1 isRule)

namespace Model

/-- **Taking an entry** adds the rule that it builds. -/
theorem addEntry_eq_ok_iff {builder next : Builder} {entry : RuleEntry} :
    addEntry builder entry = .ok next ↔
      ∃ rule, Rule.build entry = .ok rule ∧ next = builder.addRule entry.state rule := by
  rw [addEntry]
  cases Rule.build entry with
  | error fault => simp
  | ok rule => simp [eq_comm]

/-- **Adding entries fails** exactly at the first one that builds no rule. -/
theorem foldlM_addEntry_eq_error_iff {builder : Builder} {entries : List RuleEntry}
    {fault : CompileFault} :
    entries.foldlM addEntry builder = .error fault ↔
      ∃ before entry after cause, entries = before ++ entry :: after ∧
        (∀ earlier ∈ before, ∃ rule, Rule.build earlier = .ok rule) ∧
        Rule.build entry = .error cause ∧ fault = .rule cause := by
  induction entries generalizing builder with
  | nil => simp [pure, Except.pure]
  | cons first entries ih =>
      rw [List.foldlM_cons, addEntry]
      cases built : Rule.build first with
      | error cause =>
          constructor
          · intro failed
            exact ⟨[], first, entries, cause, rfl, fun _ absent => absurd absent List.not_mem_nil,
              built, (Except.error.inj failed).symm⟩
          · rintro ⟨_ | ⟨other, before⟩, entry, after, its, split, builds, fails, rfl⟩
            · obtain rfl := (List.cons.inj split).1
              rw [Except.error.inj (built.symm.trans fails)]
              rfl
            -- the first entry would have to build a rule
            · obtain rfl := (List.cons.inj split).1
              obtain ⟨rule, known⟩ := builds first List.mem_cons_self
              exact nomatch built.symm.trans known
      | ok rule =>
          refine ih.trans ⟨?_, ?_⟩
          · rintro ⟨before, entry, after, cause, rfl, builds, fails⟩
            exact ⟨first :: before, entry, after, cause, rfl,
              List.forall_mem_cons.2 ⟨⟨rule, built⟩, builds⟩, fails⟩
          · rintro ⟨_ | ⟨other, before⟩, entry, after, cause, split, builds, fails, same⟩
            · obtain rfl := (List.cons.inj split).1
              exact nomatch built.symm.trans fails
            · exact ⟨before, entry, after, cause, (List.cons.inj split).2,
                (List.forall_mem_cons.1 builds).2, fails, same⟩

/-- **What assembling gives**: the start is the position of its name, and all targets are there. -/
theorem assemble_eq_ok_iff {states : List State} {index : Index} {start : Text} {model : Model} :
    assemble states index start = .ok model ↔ ∃ position, index.find? start = some position ∧
      unknownTarget? index states = none ∧ model = ⟨states, index, position⟩ := by
  rw [assemble]
  cases index.find? start with
  | none => simp
  | some position =>
      cases unknownTarget? index states with
      | none => simp [eq_comm]
      | some missing => simp

/-- **What compiling does**: all rules are added, and the first declared state is the start. -/
theorem compile_eq_ok_iff {specification : Specification} {model : Model} :
    compile specification = .ok model ↔ ∃ builder first rest,
      specification.rules.foldlM addEntry Builder.empty = .ok builder ∧
      specification.states = first :: rest ∧
      assemble builder.states builder.index first = .ok model := by
  rw [compile]
  cases specification.rules.foldlM addEntry Builder.empty with
  | error fault => simp
  | ok builder =>
      simp only [Except.mapError_eq_ok_iff]
      cases specification.states with
      | nil => simp [Builder.build]
      | cons first rest => simp [Builder.build]

/-- **When compiling finds fault with a rule**: adding the rules does. -/
theorem compile_eq_rule_error_iff {specification : Specification} {fault : Rule.Fault} :
    compile specification = .error (.rule fault) ↔
      specification.rules.foldlM addEntry Builder.empty = .error (.rule fault) := by
  rw [compile]
  cases specification.rules.foldlM addEntry Builder.empty with
  | error other => simp
  | ok builder => simp [Except.mapError_eq_error_iff]

/-- **When compiling finds fault with the states**: all rules are added, but they make no model. -/
theorem compile_eq_model_error_iff {specification : Specification} {fault : Fault} :
    compile specification = .error (.model fault) ↔ ∃ builder,
      specification.rules.foldlM addEntry Builder.empty = .ok builder ∧
      builder.build specification.states = .error fault := by
  rw [compile]
  cases run : specification.rules.foldlM addEntry Builder.empty with
  | error other =>
      obtain ⟨-, -, -, cause, -, -, -, rfl⟩ := foldlM_addEntry_eq_error_iff.1 run
      exact ⟨nofun, nofun⟩
  | ok builder =>
      simp only [Except.mapError_eq_error_iff, CompileFault.model.injEq, exists_eq_right,
        Except.ok.injEq, exists_eq_left']

/-- **When no state is declared.** -/
theorem build_eq_noStates_iff {builder : Builder} {names : List Text} :
    builder.build names = .error .noStates ↔ names = [] := by
  cases names with
  | nil => simp [Builder.build]
  | cons first rest =>
      rw [Builder.build, assemble]
      cases builder.index.find? first with
      | none => simp
      | some position =>
          cases unknownTarget? builder.index builder.states with
          | none => simp
          | some missing => simp

/-- **When the start is missing**: the first declared state is not there. -/
theorem build_eq_unknownStart_iff {builder : Builder} {names : List Text} {name : Text} :
    builder.build names = .error (.unknownStart name) ↔ ∃ rest,
      names = name :: rest ∧ builder.index.find? name = none := by
  cases names with
  | nil => simp [Builder.build]
  | cons first rest =>
      rw [Builder.build, assemble]
      cases found : builder.index.find? first with
      | none =>
          simp only [Except.error.injEq, Fault.unknownStart.injEq, List.cons.injEq]
          constructor
          · rintro rfl
            exact ⟨rest, ⟨rfl, rfl⟩, found⟩
          · rintro ⟨_, ⟨same, -⟩, -⟩
            exact same
      | some position =>
          -- the start is there, whatever becomes of the targets
          have there : ¬∃ others, first :: rest = name :: others ∧ builder.index.find? name = none := by
            rintro ⟨others, same, missing⟩
            obtain rfl := (List.cons.inj same).1
            exact nomatch found.symm.trans missing
          cases unknownTarget? builder.index builder.states with
          | none => exact iff_of_false nofun there
          | some missing => exact iff_of_false nofun there

/-- **When a target is missing**: the start is there, and the target is the first one that is not. -/
theorem build_eq_unknownTarget_iff {builder : Builder} {names : List Text} {state target : Text} :
    builder.build names = .error (.unknownTarget state target) ↔ ∃ first rest position,
      names = first :: rest ∧ builder.index.find? first = some position ∧
      unknownTarget? builder.index builder.states = some (state, target) := by
  cases names with
  | nil => simp [Builder.build]
  | cons first rest =>
      rw [Builder.build, assemble]
      cases found : builder.index.find? first with
      | none => simp [found]
      | some position =>
          cases unknownTarget? builder.index builder.states with
          | none => simp
          | some missing => simp [found, Prod.ext_iff]

end Model

end Lexer
