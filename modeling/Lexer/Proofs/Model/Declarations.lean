import Lexer.Proofs.Model.Composing
import Lexer.Proofs.Model.Interleaving
import Lexer.Specification.Warnings

/-! # Declarations and compilation

Warnings and compilation look at the same rules in two ways: a warning is about the lines of a rule, read one by
one, and compilation goes by the actions that are composed of all of them.  **A rule changes to the same states
in both**, so what the warnings say about targets holds of the model.  Rules that agree with the declarations
give no warning; if in addition every declared state has a rule, a model is assembled of exactly the declared
states.  Conversely, a target that is missing from a model was warned about, or is declared and has no rule. -/

namespace Lexer

namespace Specification

/-! ## (1) No warnings -/

/-- No name is repeated, given some distinct ones in front, exactly if the names are distinct and none of them
stands in front. -/
theorem repeatedAfter_eq_nil_iff {earlier names : List Text} (distinct : earlier.Nodup) :
    repeatedAfter earlier names = [] ↔ (∀ name ∈ names, name ∉ earlier) ∧ names.Nodup := by
  induction names generalizing earlier with
  | nil => simp [repeatedAfter]
  | cons name names ih =>
      rw [repeatedAfter, List.forall_mem_cons, List.nodup_cons]
      by_cases member : name ∈ earlier
      · rw [if_pos (List.count_eq_one_of_mem distinct member)]
        exact ⟨nofun, fun both => absurd member both.1.1⟩
      · rw [if_neg (by rw [List.count_eq_zero_of_not_mem member]; decide),
          ih (List.nodup_cons.2 ⟨member, distinct⟩)]
        -- a later name may neither be this one nor stand in front of it
        constructor
        · rintro ⟨apart, others⟩
          refine ⟨⟨member, fun other isOther => ?_⟩, fun again => ?_, others⟩
          · exact fun early => apart other isOther (List.mem_cons_of_mem name early)
          · exact apart name again List.mem_cons_self
        · rintro ⟨⟨-, apart⟩, once, others⟩
          refine ⟨fun other isOther early => ?_, others⟩
          rcases List.mem_cons.1 early with rfl | early
          · exact once isOther
          · exact apart other isOther early

/-- **No name is repeated** exactly if the names are distinct. -/
theorem repeatedNames_eq_nil_iff {names : List Text} : repeatedNames names = [] ↔ names.Nodup := by
  rw [repeatedNames, repeatedAfter_eq_nil_iff List.nodup_nil]
  exact and_iff_right fun _ _ => List.not_mem_nil

/-- **A rule agrees** with what is declared. -/
structure RuleAgrees (specification : Specification) (entry : RuleEntry) : Prop where
  /-- Its state is declared. -/
  state : entry.state ∈ specification.states
  /-- Its token class is declared, if it has one. -/
  token : entry.action = Action.noToken ∨ entry.action ∈ specification.tokens
  /-- The states that it changes to are declared. -/
  targets : ∀ target ∈ targetsOf entry.extras, target ∈ specification.states

/-- **A specification agrees** with what it declares. -/
structure Agrees (specification : Specification) : Prop where
  /-- States are declared once. -/
  states : specification.states.Nodup
  /-- Token classes are declared once. -/
  tokens : specification.tokens.Nodup
  /-- The rules agree with the declarations. -/
  rules : ∀ entry ∈ specification.rules, specification.RuleAgrees entry

/-- There is no warning about a rule exactly if it agrees with what is declared. -/
theorem ruleWarnings_eq_nil_iff {specification : Specification} {entry : RuleEntry} :
    ruleWarnings specification entry = [] ↔ specification.RuleAgrees entry := by
  have choice : ∀ {p : Prop} [Decidable p] {warning : Warning},
      (if p then [] else [warning]) = [] ↔ p := by
    intro p _ warning
    split <;> simp [*]
  rw [ruleWarnings, List.append_eq_nil_iff, List.append_eq_nil_iff, choice, choice,
    List.map_eq_nil_iff, List.filter_eq_nil_iff]
  simp only [decide_eq_true_iff, not_not]
  exact ⟨fun ⟨⟨state, token⟩, targets⟩ => ⟨state, token, targets⟩,
    fun agrees => ⟨⟨agrees.state, agrees.token⟩, agrees.targets⟩⟩

/-- **There are no warnings** exactly if a specification agrees with what it declares. -/
theorem warnings_eq_nil_iff {specification : Specification} :
    specification.warnings = [] ↔ specification.Agrees := by
  rw [warnings, List.append_eq_nil_iff, List.append_eq_nil_iff, List.map_eq_nil_iff,
    List.map_eq_nil_iff, repeatedNames_eq_nil_iff, repeatedNames_eq_nil_iff, List.flatMap_eq_nil_iff]
  simp only [ruleWarnings_eq_nil_iff]
  exact ⟨fun ⟨⟨states, tokens⟩, rules⟩ => ⟨states, tokens, rules⟩,
    fun agrees => ⟨⟨agrees.states, agrees.tokens⟩, agrees.rules⟩⟩

/-- A target that is not declared is warned about. -/
theorem undeclaredTarget_mem_warnings {specification : Specification} {entry : RuleEntry}
    (isRule : entry ∈ specification.rules) {target : Text} (isTarget : target ∈ targetsOf entry.extras)
    (undeclared : target ∉ specification.states) :
    .undeclaredTarget entry.pattern target ∈ specification.warnings := by
  refine List.mem_append_right _ (List.mem_flatMap.2 ⟨entry, isRule, ?_⟩)
  refine List.mem_append_right _ (List.mem_map_of_mem (List.mem_filter.2 ⟨isTarget, ?_⟩))
  exact decide_eq_true undeclared

end Specification

open Specification (targetsOf)

/-! ## (2) Rules that are built -/

/-- **A rule changes to the states** that its lines enter. -/
theorem Rule.mem_targets_iff_of_build {entry : RuleEntry} {rule : Rule}
    (built : Rule.build entry = .ok rule) {target : Text} :
    target ∈ rule.targets ↔ target ∈ targetsOf entry.extras := by
  rw [Rule.targets_of_build built]

namespace Model

/-- **A specification that agrees** with what it declares compiles, if every declared state has a rule and every
rule is built. -/
theorem compilable_of_agrees {specification : Specification} (agrees : specification.Agrees)
    (declares : specification.states ≠ [])
    (used : ∀ name ∈ specification.states, name ∈ specification.rules.map RuleEntry.state)
    (built : ∀ entry ∈ specification.rules, ∃ rule, Rule.build entry = .ok rule) :
    Compilable specification where
  built := built
  start := by
    obtain ⟨first, rest, declared⟩ := List.exists_cons_of_ne_nil declares
    refine ⟨first, rest, declared, used first ?_⟩
    rw [declared]
    exact List.mem_cons_self
  targets entry isRule rule isBuilt target isTarget :=
    used target ((agrees.rules entry isRule).targets target
      ((Rule.mem_targets_iff_of_build isBuilt).1 isTarget))

/-! ## (3) Models -/

/-- **The states of a model** are the declared ones, each once, if the specification agrees with what it
declares and every declared state has a rule. -/
theorem names_perm_of_agrees {specification : Specification} {model : Model}
    (agrees : specification.Agrees)
    (used : ∀ name ∈ specification.states, name ∈ specification.rules.map RuleEntry.state)
    (compiled : compile specification = .ok model) :
    (model.states.map State.name).Perm specification.states := by
  have distinct := (Reached.compiled compiled).consistent.indexed.nodup
  refine (List.perm_ext_iff_of_nodup distinct agrees.states).2 fun name => ?_
  rw [(groups_of_compile compiled).1.mem_names_iff]
  constructor
  · intro named
    obtain ⟨entry, isRule, rfl⟩ := List.mem_map.1 named
    exact (agrees.rules entry isRule).state
  · exact used name

/-- **The token classes of a model** are declared, if the specification agrees with what it declares. -/
theorem token_declared_of_agrees {specification : Specification} {model : Model}
    (agrees : specification.Agrees) (compiled : compile specification = .ok model) {state : State}
    (isState : state ∈ model.states) {rule : Rule} (isRule : rule ∈ state.rules) {token : Text}
    (emits : .token token ∈ rule.actions) : token ∈ specification.tokens := by
  obtain ⟨entry, isEntry, -, built⟩ :=
    ((groups_of_compile compiled).1.mem_rules_iff_of_mem isState).1 isRule
  obtain ⟨composed, -, -⟩ := Rule.build_eq_ok_iff.1 built
  obtain ⟨rfl, named⟩ := Action.eq_name_of_token_mem composed emits
  exact (agrees.rules entry isEntry).token.resolve_left named

/-- **A missing target** is that of a rule of the state that is reported, and no rule has it as its state. -/
theorem exists_rule_of_unknownTarget {specification : Specification} {state target : Text}
    (failed : compile specification = .error (.model (.unknownTarget state target))) :
    (∃ entry ∈ specification.rules, entry.state = state ∧ ∃ rule, Rule.build entry = .ok rule ∧
      target ∈ rule.targets) ∧
      ∀ entry ∈ specification.rules, entry.state ≠ target := by
  obtain ⟨builder, run, unbuilt⟩ := compile_eq_model_error_iff.1 failed
  obtain ⟨-, -, -, -, -, missing⟩ := build_eq_unknownTarget_iff.1 unbuilt
  have ⟨groups, indexed⟩ := groups_foldlM .nil .nil run
  rw [List.nil_append] at groups
  rw [unknownTarget?_eq_find?] at missing
  have unknown := List.find?_some missing
  obtain ⟨own, isState, isTarget⟩ := List.mem_flatMap.1 (List.mem_of_find?_eq_some missing)
  obtain ⟨goal, isGoal, same⟩ := List.mem_map.1 isTarget
  obtain ⟨rfl, rfl⟩ := Prod.mk.inj same
  constructor
  · obtain ⟨rule, isRule, changes⟩ := List.mem_flatMap.1 isGoal
    obtain ⟨entry, isEntry, named, built⟩ := (groups.mem_rules_iff_of_mem isState).1 isRule
    exact ⟨entry, isEntry, named, rule, built, changes⟩
  · rintro entry isEntry rfl
    have named := groups.mem_names_iff.2 (List.mem_map_of_mem isEntry)
    rw [indexed.has_iff.2 named] at unknown
    exact absurd unknown Bool.false_ne_true

/-- **Warnings and compilation agree.**  Without warnings, a specification that declares a state, whose declared
states all have rules, and whose rules are all built, compiles to a model of exactly the declared states, and all
token classes of the model are declared.  If a target is missing when a specification is compiled, there is a
warning about it for a rule that changes to it, or the target is declared and has no rule. -/
theorem compile_agrees_with_warnings (specification : Specification) :
    (specification.warnings = [] → specification.states ≠ [] →
      (∀ name ∈ specification.states, name ∈ specification.rules.map RuleEntry.state) →
      (∀ entry ∈ specification.rules, ∃ rule, Rule.build entry = .ok rule) →
      ∃ model, compile specification = .ok model ∧
        (model.states.map State.name).Perm specification.states ∧
        ∀ state ∈ model.states, ∀ rule ∈ state.rules, ∀ token, .token token ∈ rule.actions →
          token ∈ specification.tokens) ∧
    ∀ state target, compile specification = .error (.model (.unknownTarget state target)) →
      (∃ entry ∈ specification.rules, ∃ rule, Rule.build entry = .ok rule ∧ target ∈ rule.targets ∧
        .undeclaredTarget entry.pattern target ∈ specification.warnings) ∨
      target ∈ specification.states ∧ ∀ entry ∈ specification.rules, entry.state ≠ target := by
  constructor
  · intro quiet declares used built
    have agrees := Specification.warnings_eq_nil_iff.1 quiet
    obtain ⟨model, compiled⟩ :=
      exists_compile_iff.2 (compilable_of_agrees agrees declares used built)
    refine ⟨model, compiled, names_perm_of_agrees agrees used compiled, ?_⟩
    intro state isState rule isRule token emits
    exact token_declared_of_agrees agrees compiled isState isRule emits
  · intro state target failed
    obtain ⟨⟨entry, isRule, -, rule, built, isTarget⟩, unused⟩ := exists_rule_of_unknownTarget failed
    by_cases declared : target ∈ specification.states
    · exact .inr ⟨declared, unused⟩
    · have changes := (Rule.mem_targets_iff_of_build built).1 isTarget
      exact .inl ⟨entry, isRule, rule, built, isTarget,
        Specification.undeclaredTarget_mem_warnings isRule changes declared⟩

/-- The general statement at two states that change to each other: once with both declared and used, once with
the second one neither declared nor used, and once with the second one declared but not used. -/
theorem compile_agrees_with_warnings_crossing :
    let one : RuleEntry := ⟨['A'], ['a'], ['-'], ["UDJI_U_STANJE B".toList]⟩
    let other : RuleEntry := ⟨['B'], ['b'], ['B'], ["UDJI_U_STANJE A".toList]⟩
    let quiet : Specification := ⟨[], [['A'], ['B']], [['B']], [one, other]⟩
    let undeclared : Specification := ⟨[], [['A']], [], [one]⟩
    let unused : Specification := ⟨[], [['A'], ['B']], [], [one]⟩
    (∃ model, compile quiet = .ok model ∧ (model.states.map State.name).Perm [['A'], ['B']] ∧
      ∀ state ∈ model.states, ∀ rule ∈ state.rules, ∀ token, .token token ∈ rule.actions →
        token ∈ [['B']]) ∧
      (compile undeclared = .error (.model (.unknownTarget ['A'] ['B'])) ∧
        ∃ entry ∈ [one], ∃ rule, Rule.build entry = .ok rule ∧ ['B'] ∈ rule.targets ∧
          .undeclaredTarget entry.pattern ['B'] ∈ undeclared.warnings) ∧
      compile unused = .error (.model (.unknownTarget ['A'] ['B'])) ∧
        ['B'] ∈ unused.states ∧ ∀ entry ∈ unused.rules, entry.state ≠ ['B'] := by
  intro one other quiet undeclared unused
  have built : ∀ entry ∈ quiet.rules, ∃ rule, Rule.build entry = .ok rule := by
    have letters : ∀ entry ∈ [one, other], (Rule.build entry).isOk = true := by decide +kernel
    intro entry isRule
    have isOk := letters entry isRule
    cases outcome : Rule.build entry with
    | ok rule => exact ⟨rule, rfl⟩
    | error fault => exact nomatch (congrArg Except.isOk outcome).symm.trans isOk
  have undeclaredFails : compile undeclared = .error (.model (.unknownTarget ['A'] ['B'])) := by
    decide +kernel
  have unusedFails : compile unused = .error (.model (.unknownTarget ['A'] ['B'])) := by
    decide +kernel
  have quietUnused : unused.warnings = [] := by decide +kernel
  refine ⟨?_, ⟨undeclaredFails, ?_⟩, unusedFails, ?_⟩
  · exact (compile_agrees_with_warnings quiet).1 (by decide +kernel) (by decide) (by decide) built
  · refine ((compile_agrees_with_warnings undeclared).2 _ _ undeclaredFails).resolve_right ?_
    rintro ⟨declared, -⟩
    exact absurd declared (by decide)
  · refine ((compile_agrees_with_warnings unused).2 _ _ unusedFails).resolve_left ?_
    rintro ⟨entry, -, rule, -, -, warned⟩
    rw [quietUnused] at warned
    exact absurd warned List.not_mem_nil

end Model

end Lexer
