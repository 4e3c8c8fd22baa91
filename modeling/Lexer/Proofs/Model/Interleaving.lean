import Lexer.Proofs.Invariant
import Lexer.Proofs.Model.Grouping

/-! # Interleaved rules

How the rules of different states are interleaved decides where a state stands in a model, and which fault is
found first.  **It decides nothing else.**  Whether a specification compiles depends on which entries it has,
and on no order at all.  What stands under the name of a state depends on the entries of that state alone, in
their order; and the list of states by name is in the order of the names. -/

namespace Lexer

/-- The rules of some entries are what the entries build. -/
theorem Rule.map_build_of_forall₂ {entries : List RuleEntry} {rules : List Rule}
    (each : List.Forall₂ Rule.Of entries rules) :
    entries.map Rule.build = rules.map Except.ok := by
  induction each with
  | nil => rfl
  | cons isRule _ ih => rw [List.map_cons, List.map_cons, isRule.built, ih]

namespace Model

/-! ## (1) Entries that agree state by state -/

/-- **Entries agree state by state**: they may differ in how those of different states are interleaved. -/
def AgreeByState (left right : List RuleEntry) : Prop :=
  ∀ name, left.filter (fun entry => entry.state = name) = right.filter fun entry => entry.state = name

namespace AgreeByState

variable {left right : List RuleEntry}

/-- Agreement is mutual. -/
theorem symm (agree : AgreeByState left right) : AgreeByState right left :=
  fun name => (agree name).symm

/-- Entries that agree state by state are the same ones. -/
theorem mem_iff (agree : AgreeByState left right) {entry : RuleEntry} :
    entry ∈ left ↔ entry ∈ right := by
  have own : ∀ entries : List RuleEntry,
      entry ∈ entries ↔ entry ∈ entries.filter fun other => other.state = entry.state := by
    intro entries
    rw [List.mem_filter, decide_eq_true rfl, and_iff_left rfl]
  rw [own left, own right, agree entry.state]

/-- They name the same states. -/
theorem mem_map_state_iff (agree : AgreeByState left right) {name : Text} :
    name ∈ left.map RuleEntry.state ↔ name ∈ right.map RuleEntry.state := by
  rw [List.mem_map, List.mem_map]
  exact exists_congr fun entry => and_congr_left' agree.mem_iff

end AgreeByState

/-! ## (2) Specifications that compile -/

/-- **All entries are added** if each one builds a rule. -/
theorem exists_foldlM_addEntry_iff {entries : List RuleEntry} {builder : Builder} :
    (∃ last, entries.foldlM addEntry builder = .ok last) ↔
      ∀ entry ∈ entries, ∃ rule, Rule.build entry = .ok rule := by
  induction entries generalizing builder with
  | nil => exact ⟨fun _ entry member => absurd member List.not_mem_nil, fun _ => ⟨builder, rfl⟩⟩
  | cons entry entries ih =>
      rw [List.forall_mem_cons]
      simp only [List.foldlM_cons, Except.bind_eq_ok_iff]
      constructor
      · rintro ⟨last, next, added, run⟩
        obtain ⟨rule, built, -⟩ := addEntry_eq_ok_iff.1 added
        exact ⟨⟨rule, built⟩, ih.1 ⟨last, run⟩⟩
      · rintro ⟨⟨rule, built⟩, others⟩
        obtain ⟨last, run⟩ := ih.2 others
        exact ⟨last, _, addEntry_eq_ok_iff.2 ⟨rule, built, rfl⟩, run⟩

/-- **The rules of a grouped state** are those that its entries build. -/
theorem Groups.mem_rules_iff_of_mem {entries : List RuleEntry} {states : List State}
    (groups : Groups entries states) {state : State} (member : state ∈ states) {rule : Rule} :
    rule ∈ state.rules ↔
      ∃ entry ∈ entries, entry.state = state.name ∧ Rule.build entry = .ok rule := by
  have built := Rule.map_build_of_forall₂ (groups.rules state member)
  rw [← List.mem_map_of_injective fun _ _ => Except.ok.inj, ← built, List.mem_map]
  simp only [List.mem_filter, decide_eq_true_iff, and_assoc]

/-- The rules of all grouped states are those that the entries build. -/
theorem Groups.mem_rules_iff {entries : List RuleEntry} {states : List State}
    (groups : Groups entries states) {rule : Rule} :
    (∃ state ∈ states, rule ∈ state.rules) ↔ ∃ entry ∈ entries, Rule.build entry = .ok rule := by
  constructor
  · rintro ⟨state, member, isRule⟩
    obtain ⟨entry, isEntry, -, built⟩ := (groups.mem_rules_iff_of_mem member).1 isRule
    exact ⟨entry, isEntry, built⟩
  · rintro ⟨entry, isEntry, built⟩
    obtain ⟨state, member, named⟩ :=
      List.mem_map.1 (groups.mem_names_iff.2 (List.mem_map_of_mem isEntry))
    exact ⟨state, member, (groups.mem_rules_iff_of_mem member).2 ⟨entry, isEntry, named.symm, built⟩⟩

/-- **A specification that compiles**, told by its entries in any order. -/
structure Compilable (specification : Specification) : Prop where
  /-- Every entry builds a rule. -/
  built : ∀ entry ∈ specification.rules, ∃ rule, Rule.build entry = .ok rule
  /-- A state is declared, and an entry names the first one. -/
  start : ∃ first rest, specification.states = first :: rest ∧
    first ∈ specification.rules.map RuleEntry.state
  /-- An entry names every state that a rule changes to. -/
  targets : ∀ entry ∈ specification.rules, ∀ rule, Rule.build entry = .ok rule →
    ∀ target ∈ rule.targets, target ∈ specification.rules.map RuleEntry.state

/-- All targets of grouped states are there if the entries name every state that their rules change to. -/
theorem Groups.unknownTarget?_eq_none_iff {entries : List RuleEntry} {states : List State}
    (groups : Groups entries states) {index : Index} (indexed : Indexed states index) :
    unknownTarget? index states = none ↔ ∀ entry ∈ entries, ∀ rule, Rule.build entry = .ok rule →
      ∀ target ∈ rule.targets, target ∈ entries.map RuleEntry.state := by
  rw [Model.unknownTarget?_eq_none_iff]
  simp only [indexed.has_iff, groups.mem_names_iff]
  constructor
  · intro known entry isEntry rule built target isTarget
    obtain ⟨state, member, isRule⟩ := groups.mem_rules_iff.2 ⟨entry, isEntry, built⟩
    exact known state member target (List.mem_flatMap.2 ⟨rule, isRule, isTarget⟩)
  · intro known state member target isTarget
    obtain ⟨rule, isRule, isTarget⟩ := List.mem_flatMap.1 isTarget
    obtain ⟨entry, isEntry, built⟩ := groups.mem_rules_iff.1 ⟨state, member, isRule⟩
    exact known entry isEntry rule built target isTarget

/-- States are assembled if the start and all targets are there. -/
theorem exists_assemble_iff {states : List State} {index : Index} {start : Text} :
    (∃ model, assemble states index start = .ok model) ↔
      index.has start = true ∧ unknownTarget? index states = none := by
  rw [Index.has, Option.isSome_iff_exists]
  constructor
  · rintro ⟨model, assembled⟩
    obtain ⟨position, found, known, -⟩ := assemble_eq_ok_iff.1 assembled
    exact ⟨⟨position, found⟩, known⟩
  · rintro ⟨⟨position, found⟩, known⟩
    exact ⟨_, assemble_eq_ok_iff.2 ⟨position, found, known, rfl⟩⟩

/-- **What holds of the states** that some entries are added to, told by the entries: they all build rules, and
what holds of the states follows from how they are grouped and indexed. -/
theorem exists_run_iff {entries : List RuleEntry} {p : Builder → Prop} {q : Prop}
    (same : ∀ builder, Groups entries builder.states → Indexed builder.states builder.index →
      (p builder ↔ q)) :
    (∃ builder, entries.foldlM addEntry Builder.empty = .ok builder ∧ p builder) ↔
      (∀ entry ∈ entries, ∃ rule, Rule.build entry = .ok rule) ∧ q := by
  have holds : ∀ {builder}, entries.foldlM addEntry Builder.empty = .ok builder →
      (p builder ↔ q) := by
    intro builder run
    have ⟨groups, indexed⟩ := groups_foldlM .nil .nil run
    exact same builder groups indexed
  constructor
  · rintro ⟨builder, run, has⟩
    exact ⟨exists_foldlM_addEntry_iff.1 ⟨builder, run⟩, (holds run).1 has⟩
  · rintro ⟨built, has⟩
    obtain ⟨builder, run⟩ := exists_foldlM_addEntry_iff.2 built
    exact ⟨builder, run, (holds run).2 has⟩

/-- A specification compiles if its entries are added, and the states have the start and all targets. -/
theorem exists_compile_iff_exists_run {specification : Specification} :
    (∃ model, compile specification = .ok model) ↔ ∃ builder,
      specification.rules.foldlM addEntry Builder.empty = .ok builder ∧
      (∃ first rest, specification.states = first :: rest ∧ builder.index.has first = true) ∧
      unknownTarget? builder.index builder.states = none := by
  simp only [compile_eq_ok_iff]
  constructor
  · rintro ⟨model, builder, first, rest, run, declared, assembled⟩
    obtain ⟨has, known⟩ := exists_assemble_iff.1 ⟨model, assembled⟩
    exact ⟨builder, run, ⟨first, rest, declared, has⟩, known⟩
  · rintro ⟨builder, run, ⟨first, rest, declared, has⟩, known⟩
    obtain ⟨model, assembled⟩ := exists_assemble_iff.2 ⟨has, known⟩
    exact ⟨model, builder, first, rest, run, declared, assembled⟩

/-- **When a specification compiles.** -/
theorem exists_compile_iff {specification : Specification} :
    (∃ model, compile specification = .ok model) ↔ Compilable specification := by
  have told : ∀ builder : Builder, Groups specification.rules builder.states →
      Indexed builder.states builder.index →
      ((∃ first rest, specification.states = first :: rest ∧ builder.index.has first = true) ∧
        unknownTarget? builder.index builder.states = none ↔
        (∃ first rest, specification.states = first :: rest ∧
          first ∈ specification.rules.map RuleEntry.state) ∧
        ∀ entry ∈ specification.rules, ∀ rule, Rule.build entry = .ok rule →
          ∀ target ∈ rule.targets, target ∈ specification.rules.map RuleEntry.state) := by
    intro builder groups indexed
    simp only [indexed.has_iff, groups.mem_names_iff, groups.unknownTarget?_eq_none_iff indexed]
  rw [exists_compile_iff_exists_run, exists_run_iff told]
  exact ⟨fun ⟨built, start, targets⟩ => ⟨built, start, targets⟩,
    fun compilable => ⟨compilable.built, compilable.start, compilable.targets⟩⟩

/-- **Interleaving does not decide** whether a specification compiles. -/
theorem Compilable.of_agree {first second : Specification} (compilable : Compilable first)
    (declared : first.states = second.states) (agree : AgreeByState first.rules second.rules) :
    Compilable second where
  built entry member := compilable.built entry (agree.mem_iff.2 member)
  start := by
    obtain ⟨name, rest, same, named⟩ := compilable.start
    exact ⟨name, rest, declared.symm.trans same, agree.mem_map_state_iff.1 named⟩
  targets entry member rule built target isTarget :=
    agree.mem_map_state_iff.1
      (compilable.targets entry (agree.mem_iff.2 member) rule built target isTarget)

/-! ## (3) Models of entries that agree -/

/-- Rules of the same entries are the same. -/
theorem eq_of_forall₂_of {entries : List RuleEntry} {rules others : List Rule}
    (first : List.Forall₂ Rule.Of entries rules) (second : List.Forall₂ Rule.Of entries others) :
    rules = others := by
  have same := (Rule.map_build_of_forall₂ first).symm.trans (Rule.map_build_of_forall₂ second)
  exact List.map_injective_iff.2 (fun _ _ => Except.ok.inj) same

/-- **A state** of entries is one of all entries that agree with them. -/
theorem Groups.mem_of_agree {left right : List RuleEntry} {states others : List State}
    (first : Groups left states) (second : Groups right others) (agree : AgreeByState left right)
    {state : State} (member : state ∈ states) : state ∈ others := by
  have named : state.name ∈ others.map State.name := by
    rw [second.mem_names_iff, ← agree.mem_map_state_iff, ← first.mem_names_iff]
    exact List.mem_map_of_mem member
  obtain ⟨other, isOther, sameName⟩ := List.mem_map.1 named
  have otherRules := second.rules other isOther
  rw [sameName, ← agree state.name] at otherRules
  -- a state is its name and its rules, and both are the same
  have sameRules := eq_of_forall₂_of otherRules (first.rules state member)
  obtain ⟨name, rules⟩ := state
  obtain ⟨otherName, others⟩ := other
  obtain rfl : otherName = name := sameName
  obtain rfl : others = rules := sameRules
  exact isOther

/-- Models of the same states list the same states by name. -/
theorem Consistent.statesByName_congr {left right : Model} (first : left.Consistent)
    (second : right.Consistent) (same : ∀ state, state ∈ left.states ↔ state ∈ right.states) :
    left.statesByName = right.statesByName := by
  have states : left.states.Perm right.states :=
    (List.perm_ext_iff_of_nodup (.of_map _ first.indexed.nodup) (.of_map _ second.indexed.nodup)).2 same
  have listed := (first.lookups.listed.trans (states.map _)).trans second.lookups.listed.symm
  -- both lists are in the strict order of the names, which leaves one arrangement
  refine listed.eq_of_pairwise (fun entry other _ _ less more => ?_) first.lookups.ordered
    second.lookups.ordered
  exact absurd more (List.lt_asymm less)

/-- A state is found under its name. -/
theorem Consistent.state?_eq_some_iff {model : Model} (consistent : model.Consistent) {name : Text}
    {state : State} : model.state? name = some state ↔ state ∈ model.states ∧ state.name = name := by
  rw [consistent.lookups.found]
  constructor
  · intro found
    have named := List.find?_some found
    exact ⟨List.mem_of_find?_eq_some found, of_decide_eq_true named⟩
  · rintro ⟨member, rfl⟩
    obtain ⟨other, found⟩ : ∃ other, model.states.find? (fun other => other.name = state.name) =
        some other :=
      Option.isSome_iff_exists.1 (List.find?_isSome.2 ⟨state, member, decide_eq_true rfl⟩)
    have sameName := List.find?_some found
    rw [found, List.inj_on_of_nodup_map consistent.indexed.nodup
      (List.mem_of_find?_eq_some found) member (of_decide_eq_true sameName)]

/-- The states of a compiled model group the entries, and it starts in the first declared state. -/
theorem groups_of_compile {specification : Specification} {model : Model}
    (compiled : compile specification = .ok model) :
    Groups specification.rules model.states ∧
      ∃ rest, specification.states = model.startName :: rest := by
  obtain ⟨builder, first, rest, run, declared, assembled⟩ := compile_eq_ok_iff.1 compiled
  have ⟨groups, indexed⟩ := groups_foldlM .nil .nil run
  obtain ⟨position, found, -, rfl⟩ := assemble_eq_ok_iff.1 assembled
  obtain ⟨start, known, named⟩ := indexed.find?_eq_some_iff.1 found
  have startsIn : (⟨builder.states, builder.index, position⟩ : Model).startName = first := by
    rw [startName, startState?, known]
    exact named
  rw [startsIn]
  exact ⟨groups, rest, declared⟩

/-- **The interleaving of rules does not matter.**  Two specifications that declare the same states, and whose
rules are the same in every state, both compile or both do not.  If they compile, the models start in states of
the same name and list the same states by name, with the same rules; so under every name there is the same
state, and the same rule of it wins with the same length on every input. -/
theorem compile_interleaved {first second : Specification} (declared : first.states = second.states)
    (agree : AgreeByState first.rules second.rules) :
    ((∃ model, compile first = .ok model) ↔ ∃ model, compile second = .ok model) ∧
      ∀ left right, compile first = .ok left → compile second = .ok right →
        left.startName = right.startName ∧ left.statesByName = right.statesByName ∧
        ∀ name, left.state? name = right.state? name ∧ ∀ input,
          (left.state? name).map (fun state => state.winner input) =
            (right.state? name).map fun state => state.winner input := by
  refine ⟨?_, fun left right compiledLeft compiledRight => ?_⟩
  · rw [exists_compile_iff, exists_compile_iff]
    exact ⟨fun compilable => compilable.of_agree declared agree,
      fun compilable => compilable.of_agree declared.symm agree.symm⟩
  · obtain ⟨leftGroups, leftRest, leftDeclared⟩ := groups_of_compile compiledLeft
    obtain ⟨rightGroups, rightRest, rightDeclared⟩ := groups_of_compile compiledRight
    have leftConsistent := (Reached.compiled compiledLeft).consistent
    have rightConsistent := (Reached.compiled compiledRight).consistent
    have same : ∀ state, state ∈ left.states ↔ state ∈ right.states := fun state =>
      ⟨leftGroups.mem_of_agree rightGroups agree, rightGroups.mem_of_agree leftGroups agree.symm⟩
    have found : ∀ name, left.state? name = right.state? name := by
      intro name
      refine Option.ext fun state => ?_
      rw [leftConsistent.state?_eq_some_iff, rightConsistent.state?_eq_some_iff, same]
    refine ⟨?_, leftConsistent.statesByName_congr rightConsistent same, fun name => ⟨found name, ?_⟩⟩
    · rw [declared, rightDeclared] at leftDeclared
      exact (List.head_eq_of_cons_eq leftDeclared).symm
    · intro input
      rw [found name]

/-- Two states that change to each other.  Their rules alternate in one specification, which puts the first
state in front, and not in another one, which puts the second state there. -/
theorem compile_interleaved_crossing :
    let one : RuleEntry := ⟨['A'], ['a'], ['-'], ["UDJI_U_STANJE B".toList]⟩
    let other : RuleEntry := ⟨['B'], ['b'], ['B'], ["UDJI_U_STANJE A".toList]⟩
    let last : RuleEntry := ⟨['A'], ['c'], ['A'], []⟩
    let first : Specification := ⟨[], [['A']], [], [one, other, last]⟩
    let second : Specification := ⟨[], [['A']], [['A'], ['B']], [other, one, last]⟩
    AgreeByState first.rules second.rules ∧
      ∃ left right, compile first = .ok left ∧ compile second = .ok right ∧
        left.states ≠ right.states ∧ left.start ≠ right.start ∧
        left.startName = right.startName ∧ left.statesByName = right.statesByName ∧
        (left.state? ['A']).map (fun state => state.winner ['c']) =
          (right.state? ['A']).map fun state => state.winner ['c'] := by
  intro one other last first second
  have agree : AgreeByState first.rules second.rules := by
    intro name
    by_cases isA : ['A'] = name
    · subst isA
      decide
    · by_cases isB : ['B'] = name
      · subst isB
        decide
      · simp [first, second, one, other, last, isA, isB]
  let ofLetter : Char → Automaton := fun c =>
    ⟨[⟨0, [], [⟨.single c, 1⟩]⟩, ⟨1, [], []⟩], 0, 1⟩
  let stateA : State := ⟨['A'], [⟨ofLetter 'a', [.skip, .enter ['B']], ['a']⟩,
    ⟨ofLetter 'c', [.token ['A']], ['c']⟩]⟩
  let stateB : State := ⟨['B'], [⟨ofLetter 'b', [.token ['B'], .enter ['A']], ['b']⟩]⟩
  have compiledFirst : compile first =
      .ok ⟨[stateA, stateB], [(['A'], 0), (['B'], 1)], 0⟩ := by
    decide +kernel
  have compiledSecond : compile second =
      .ok ⟨[stateB, stateA], [(['A'], 1), (['B'], 0)], 1⟩ := by
    decide +kernel
  have declared : first.states = second.states := rfl
  have ⟨start, listed, states⟩ :=
    (compile_interleaved declared agree).2 _ _ compiledFirst compiledSecond
  exact ⟨agree, _, _, compiledFirst, compiledSecond, by decide, by decide, start, listed,
    (states ['A']).2 ['c']⟩

end Model

end Lexer
