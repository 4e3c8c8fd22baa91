import Lexer.Proofs.Model.Interleaving

/-! # How compiling ends

Compiling may fail in three layers: a rule is not built, the declarations name no start, or a target is missing.
**Which fault is reported is decided by the entries alone.**  The first entry that builds no rule goes before
anything that is wrong with the declarations, and of that entry a malformed line goes before a malformed pattern.
A missing target is looked for state by state, in the order in which the entries first name the states, and not
in the order of the entries; so a rule further back may be the one that is reported. -/

namespace Lexer

/-! ## (1) Rules that are not built -/

/-- **Why an entry builds no rule**: its first malformed line, or else its pattern. -/
inductive Rule.Fails (entry : RuleEntry) : Rule.Fault → Prop where
  /-- A line is malformed, and no line in front of it is. -/
  | directive {before after : List Text} {fault : Directive.Fault}
      (split : entry.extras = before ++ fault.line :: after)
      (readable : ∀ earlier ∈ before, ∃ placed, Directive.read earlier = .ok placed)
      (malformed : Directive.read fault.line = .error fault) : Fails entry (.directive fault)
  /-- No line is malformed, but the pattern is. -/
  | pattern {fault : Pattern.Fault}
      (readable : ∀ line ∈ entry.extras, ∃ placed, Directive.read line = .ok placed)
      (malformed : Automaton.compile entry.pattern = .error fault) :
      Fails entry (.pattern entry.pattern fault)

/-- **An entry builds no rule** exactly for such a reason. -/
theorem Rule.fails_iff {entry : RuleEntry} {fault : Rule.Fault} :
    Rule.Fails entry fault ↔ Rule.build entry = .error fault := by
  rw [Rule.build_eq_error_iff]
  simp only [Action.compose_eq_error_iff, Action.compose_eq_ok_iff]
  constructor
  · rintro (⟨split, readable, malformed⟩ | ⟨readable, malformed⟩)
    · exact .inl ⟨_, ⟨_, _, split, readable, malformed⟩, rfl⟩
    · exact .inr ⟨⟨_, readable, rfl⟩, _, malformed, rfl⟩
  · rintro (⟨cause, ⟨before, after, split, readable, malformed⟩, rfl⟩ |
      ⟨⟨actions, readable, -⟩, cause, malformed, rfl⟩)
    · exact .directive split readable malformed
    · exact .pattern readable malformed

namespace Model

/-! ## (2) Changes of state -/

/-- **The changes of state** that some entries ask for, each with the state that it starts from: state by state
in the order in which the entries first name them, then entry by entry, then line by line. -/
def changesOf (entries : List RuleEntry) : List (Text × Text) :=
  (entries.map RuleEntry.state).eraseDups.flatMap fun name =>
    (entries.filter fun entry => entry.state = name).flatMap fun entry =>
      (Specification.targetsOf entry.extras).map fun target => (name, target)

/-- The rules of some entries change to the states that their lines enter. -/
theorem flatMap_targets_of_forall₂ {entries : List RuleEntry} {rules : List Rule}
    (each : List.Forall₂ Rule.Of entries rules) :
    rules.flatMap Rule.targets = entries.flatMap fun entry => Specification.targetsOf entry.extras := by
  induction each with
  | nil => rfl
  | cons isRule _ ih =>
      rw [List.flatMap_cons, List.flatMap_cons, Rule.targets_of_build isRule.built, ih]

/-- **Grouped states** have the changes of their entries, in the same order. -/
theorem Groups.changes_eq {entries : List RuleEntry} {states : List State}
    (groups : Groups entries states) : changes states = changesOf entries := by
  have own : ∀ state ∈ states, (targets state).map (fun target => (state.name, target)) =
      (entries.filter fun entry => entry.state = state.name).flatMap fun entry =>
        (Specification.targetsOf entry.extras).map fun target => (state.name, target) := by
    intro state member
    rw [targets, flatMap_targets_of_forall₂ (groups.rules state member), List.map_flatMap]
  rw [changes, List.flatMap_congr own, changesOf, ← groups.names, List.flatMap_map]

/-- **The missing target** of grouped states is the first one among the changes of their entries. -/
theorem Groups.unknownTarget?_eq {entries : List RuleEntry} {states : List State}
    (groups : Groups entries states) {index : Index} (indexed : Indexed states index) :
    unknownTarget? index states =
      (changesOf entries).find? fun change => change.2 ∉ entries.map RuleEntry.state := by
  rw [indexed.unknownTarget?_eq, groups.changes_eq]
  simp only [groups.mem_names_iff]

/-! ## (3) All ways to end -/

section

variable {specification : Specification}

/-- **Compiling fails for a rule** exactly if an entry builds none, for the reason of the first such entry. -/
theorem compile_eq_rule_iff {fault : Rule.Fault} :
    compile specification = .error (.rule fault) ↔
      ∃ before entry after, specification.rules = before ++ entry :: after ∧
        (∀ earlier ∈ before, ∃ rule, Rule.build earlier = .ok rule) ∧ Rule.Fails entry fault := by
  rw [compile_eq_rule_error_iff, foldlM_addEntry_eq_error_iff]
  simp only [Rule.fails_iff]
  constructor
  · rintro ⟨before, entry, after, cause, split, builds, fails, same⟩
    obtain rfl := CompileFault.rule.inj same
    exact ⟨before, entry, after, split, builds, fails⟩
  · rintro ⟨before, entry, after, split, builds, fails⟩
    exact ⟨before, entry, after, fault, split, builds, fails, rfl⟩

/-- **No state** is the fault exactly if all entries build rules and no state is declared. -/
theorem compile_eq_noStates_iff :
    compile specification = .error (.model .noStates) ↔
      (∀ entry ∈ specification.rules, ∃ rule, Rule.build entry = .ok rule) ∧
        specification.states = [] := by
  rw [compile_eq_model_error_iff]
  exact exists_run_iff fun builder _ _ => build_eq_noStates_iff

/-- **The start** is the fault exactly if all entries build rules and none is active in the first declared
state. -/
theorem compile_eq_unknownStart_iff {name : Text} :
    compile specification = .error (.model (.unknownStart name)) ↔
      (∀ entry ∈ specification.rules, ∃ rule, Rule.build entry = .ok rule) ∧
        (∃ rest, specification.states = name :: rest) ∧
          name ∉ specification.rules.map RuleEntry.state := by
  rw [compile_eq_model_error_iff]
  refine exists_run_iff fun builder groups indexed => ?_
  rw [build_eq_unknownStart_iff, indexed.find?_eq_none_iff, groups.mem_names_iff]
  exact ⟨fun ⟨rest, declared, missing⟩ => ⟨⟨rest, declared⟩, missing⟩,
    fun ⟨⟨rest, declared⟩, missing⟩ => ⟨rest, declared, missing⟩⟩

/-- **A target** is the fault exactly if all entries build rules, one is active in the first declared state, and
this is the first change to a state in which none is active. -/
theorem compile_eq_unknownTarget_iff {state target : Text} :
    compile specification = .error (.model (.unknownTarget state target)) ↔
      (∀ entry ∈ specification.rules, ∃ rule, Rule.build entry = .ok rule) ∧
        (∃ first ∈ specification.rules.map RuleEntry.state, ∃ rest,
          specification.states = first :: rest) ∧
          (changesOf specification.rules).find?
            (fun change => change.2 ∉ specification.rules.map RuleEntry.state) = some (state, target) := by
  rw [compile_eq_model_error_iff]
  refine exists_run_iff fun builder groups indexed => ?_
  rw [build_eq_unknownTarget_iff, groups.unknownTarget?_eq indexed]
  constructor
  · rintro ⟨first, rest, position, declared, found, missing⟩
    have there : builder.index.has first = true := by rw [Index.has, found, Option.isSome_some]
    rw [indexed.has_iff, groups.mem_names_iff] at there
    exact ⟨⟨first, there, rest, declared⟩, missing⟩
  · rintro ⟨⟨first, there, rest, declared⟩, missing⟩
    rw [← groups.mem_names_iff, ← indexed.has_iff, Index.has, Option.isSome_iff_exists] at there
    obtain ⟨position, found⟩ := there
    exact ⟨first, rest, position, declared, found, missing⟩

/-- **There is a model** exactly if all entries build rules, one is active in the first declared state, and one
is active in every state that is changed to. -/
theorem exists_compile_iff_changes :
    (∃ model, compile specification = .ok model) ↔
      (∀ entry ∈ specification.rules, ∃ rule, Rule.build entry = .ok rule) ∧
        (∃ first ∈ specification.rules.map RuleEntry.state, ∃ rest,
          specification.states = first :: rest) ∧
          ∀ change ∈ changesOf specification.rules,
            change.2 ∈ specification.rules.map RuleEntry.state := by
  rw [exists_compile_iff_exists_run]
  refine exists_run_iff fun builder groups indexed => ?_
  rw [groups.unknownTarget?_eq indexed, List.find?_eq_none]
  simp only [decide_eq_true_iff, not_not, indexed.has_iff, groups.mem_names_iff]
  refine and_congr_left' ⟨?_, ?_⟩
  · rintro ⟨first, rest, declared, there⟩
    exact ⟨first, there, rest, declared⟩
  · rintro ⟨first, there, rest, declared⟩
    exact ⟨first, rest, declared, there⟩

end

/-- **How compiling ends.**  It fails for a rule exactly if an entry builds none; the fault is that of the first
such entry, whatever is declared, and a malformed line of it goes before its pattern.  If all entries build
rules, it fails exactly if no state is declared; or else exactly if no entry is active in the first declared
state, which is named; or else exactly if no entry is active in a state that a rule changes to, and then the
first such change is named, by states as they are first named, by rules and by lines, with the state that it
starts from.  In all other cases there is a model. -/
theorem compile_ends (specification : Specification) :
    let entries := specification.rules
    let active := entries.map RuleEntry.state
    let built := ∀ entry ∈ entries, ∃ rule, Rule.build entry = .ok rule
    (∀ fault, compile specification = .error (.rule fault) ↔
      ∃ before entry after, entries = before ++ entry :: after ∧
        (∀ earlier ∈ before, ∃ rule, Rule.build earlier = .ok rule) ∧ Rule.Fails entry fault) ∧
    (compile specification = .error (.model .noStates) ↔ built ∧ specification.states = []) ∧
    (∀ name, compile specification = .error (.model (.unknownStart name)) ↔
      built ∧ (∃ rest, specification.states = name :: rest) ∧ name ∉ active) ∧
    (∀ state target, compile specification = .error (.model (.unknownTarget state target)) ↔
      built ∧ (∃ first ∈ active, ∃ rest, specification.states = first :: rest) ∧
        (changesOf entries).find? (fun change => change.2 ∉ active) = some (state, target)) ∧
    ((∃ model, compile specification = .ok model) ↔
      built ∧ (∃ first ∈ active, ∃ rest, specification.states = first :: rest) ∧
        ∀ change ∈ changesOf entries, change.2 ∈ active) := by
  intro entries active built
  refine ⟨fun fault => ?_, ?_, fun name => ?_, fun state target => ?_, ?_⟩
  · exact compile_eq_rule_iff
  · exact compile_eq_noStates_iff
  · exact compile_eq_unknownStart_iff
  · exact compile_eq_unknownTarget_iff
  · exact exists_compile_iff_changes

/-- The last rule is the one that is reported, as it is in the state that was named first. -/
example : compile ⟨[], [['S']], [], [⟨['S'], ['a'], ['-'], []⟩,
    ⟨['T'], ['b'], ['-'], ["UDJI_U_STANJE X".toList]⟩,
    ⟨['S'], ['c'], ['-'], ["UDJI_U_STANJE Y".toList]⟩]⟩ =
    .error (.model (.unknownTarget ['S'] ['Y'])) := by
  decide +kernel

end Model

end Lexer
