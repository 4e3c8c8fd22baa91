import Lexer.Proofs.Model.Building
import Lexer.Proofs.Model.Indexing
import Mathlib.Data.List.Forall2

/-! # Grouping rules by state

Compiling adds rules one at a time, in any interleaving of their states.  **The states group some
entries** if they stand in the order in which the entries first name them, and the rules of a state are
those of its entries, in their order.  Adding the rule of one more entry keeps that, so it holds of all
entries of a specification in the end. -/

namespace Lexer

/-- **The rule of an entry**: it is built from the entry, keeps the pattern, and has the composed actions
and the compiled automaton. -/
structure Rule.Of (entry : RuleEntry) (rule : Rule) : Prop where
  /-- The entry builds the rule. -/
  built : Rule.build entry = .ok rule
  /-- The pattern is kept. -/
  pattern : rule.pattern = entry.pattern
  /-- The actions are composed. -/
  actions : Action.compose entry.action entry.extras = .ok rule.actions
  /-- The automaton is compiled. -/
  automaton : Automaton.compile entry.pattern = .ok rule.automaton

/-- What an entry builds is its rule. -/
theorem Rule.of_build {entry : RuleEntry} {rule : Rule} (built : Rule.build entry = .ok rule) :
    Rule.Of entry rule := by
  obtain ⟨actions, automaton, pattern⟩ := Rule.build_eq_ok_iff.1 built
  exact ⟨built, pattern, actions, automaton⟩

namespace Model

/-! ## (1) Names in order of first occurrence -/

/-- A name that occurs already is not a new one. -/
theorem eraseDups_append_of_mem {names : List Text} {name : Text} (member : name ∈ names) :
    (names ++ [name]).eraseDups = names.eraseDups := by
  have gone : [name].removeAll names = [] := by simp [List.removeAll, member]
  rw [List.eraseDups_append, gone, List.eraseDups_nil, List.append_nil]

/-- A name that does not occur yet comes last. -/
theorem eraseDups_append_of_not_mem {names : List Text} {name : Text} (absent : name ∉ names) :
    (names ++ [name]).eraseDups = names.eraseDups ++ [name] := by
  have kept : [name].removeAll names = [name] := by simp [List.removeAll, absent]
  rw [List.eraseDups_append, kept, List.eraseDups_cons, List.filter_nil, List.eraseDups_nil]

/-! ## (2) The invariant -/

/-- **States that group some entries.** -/
structure Groups (entries : List RuleEntry) (states : List State) : Prop where
  /-- The states stand in the order in which the entries first name them. -/
  names : states.map State.name = (entries.map RuleEntry.state).eraseDups
  /-- The rules of a state are those of its entries, in their order. -/
  rules : ∀ state ∈ states,
    List.Forall₂ Rule.Of (entries.filter fun entry => entry.state = state.name) state.rules

namespace Groups

variable {entries : List RuleEntry} {states : List State} {entry : RuleEntry} {rule : Rule}

/-- Without entries there are no states. -/
theorem nil : Groups [] [] where
  names := rfl
  rules _ member := absurd member List.not_mem_nil

/-- The states have the names that the entries name. -/
theorem mem_names_iff (groups : Groups entries states) {name : Text} :
    name ∈ states.map State.name ↔ name ∈ entries.map RuleEntry.state := by
  rw [groups.names, List.mem_eraseDups]

/-- The entries of another state stay the same. -/
theorem filter_append_of_ne {name : Text} (other : entry.state ≠ name) :
    (entries ++ [entry]).filter (fun entry => entry.state = name) =
      entries.filter fun entry => entry.state = name := by
  rw [List.filter_append, List.filter_cons_of_neg (by simpa using other), List.filter_nil,
    List.append_nil]

/-- The entries of its own state get one more. -/
theorem filter_append_of_eq {name : Text} (same : entry.state = name) :
    (entries ++ [entry]).filter (fun entry => entry.state = name) =
      (entries.filter fun entry => entry.state = name) ++ [entry] := by
  rw [List.filter_append, List.filter_cons_of_pos (by simpa using same), List.filter_nil]

/-- **A state that is there** gets the rule of an entry behind its others. -/
theorem modify (groups : Groups entries states) {index : Index} (indexed : Indexed states index)
    (isRule : Rule.Of entry rule) {position : Nat}
    (found : index.find? entry.state = some position) :
    Groups (entries ++ [entry]) (states.modify position (State.addRule rule)) := by
  obtain ⟨own, known, named⟩ := indexed.find?_eq_some_iff.1 found
  have occurs : entry.state ∈ entries.map RuleEntry.state := by
    rw [← groups.mem_names_iff, ← named]
    exact List.mem_map_of_mem (List.mem_of_getElem? known)
  refine ⟨?_, fun state member => ?_⟩
  -- the name occurs already, so neither side gets a new one
  · rw [Builder.map_name_modify, groups.names, List.map_append, List.map_singleton,
      eraseDups_append_of_mem occurs]
  · obtain ⟨offset, member⟩ := List.mem_iff_getElem?.1 member
    rw [List.getElem?_modify, Option.map_eq_map, Option.map_eq_some_iff] at member
    obtain ⟨old, oldKnown, rfl⟩ := member
    have oldRules := groups.rules old (List.mem_of_getElem? oldKnown)
    split
    · next here =>
        obtain rfl : own = old := by
          rw [here] at known
          exact Option.some.inj (known.symm.trans oldKnown)
        rw [State.addRule, filter_append_of_eq named.symm]
        exact List.rel_append oldRules (.cons isRule .nil)
    -- names are distinct, so a state at another position has another name
    · next elsewhere =>
        have other : entry.state ≠ old.name := by
          intro same
          exact elsewhere (indexed.unique known oldKnown (named.trans same))
        rw [filter_append_of_ne other]
        exact oldRules

/-- **A state that is not there** comes last, with the rule of the entry alone. -/
theorem snoc (groups : Groups entries states) {index : Index} (indexed : Indexed states index)
    (isRule : Rule.Of entry rule) (unknown : index.find? entry.state = none) :
    Groups (entries ++ [entry]) (states ++ [⟨entry.state, [rule]⟩]) := by
  have absent : entry.state ∉ states.map State.name := indexed.find?_eq_none_iff.1 unknown
  have never : entry.state ∉ entries.map RuleEntry.state := by rwa [← groups.mem_names_iff]
  refine ⟨?_, fun state member => ?_⟩
  · rw [List.map_append, List.map_append, List.map_singleton, List.map_singleton, groups.names,
      eraseDups_append_of_not_mem never]
  · rcases List.mem_append.1 member with old | new
    · have other : entry.state ≠ state.name := by
        intro same
        rw [same] at absent
        exact absent (List.mem_map_of_mem old)
      rw [filter_append_of_ne other]
      exact groups.rules state old
    · obtain rfl := List.mem_singleton.1 new
      -- no entry in front named the state, or it would be there
      have none : entries.filter (fun other => other.state = entry.state) = [] := by
        rw [List.filter_eq_nil_iff]
        intro other member same
        rw [← of_decide_eq_true same] at never
        exact never (List.mem_map_of_mem member)
      rw [filter_append_of_eq rfl, none]
      exact .cons isRule .nil

end Groups

/-! ## (3) Steps and runs -/

/-- **One more entry** keeps the states grouped and indexed. -/
theorem groups_addEntry {entries : List RuleEntry} {builder next : Builder} {entry : RuleEntry}
    (groups : Groups entries builder.states) (indexed : Indexed builder.states builder.index)
    (added : addEntry builder entry = .ok next) :
    Groups (entries ++ [entry]) next.states ∧ Indexed next.states next.index := by
  obtain ⟨rule, built, rfl⟩ := addEntry_eq_ok_iff.1 added
  refine ⟨?_, Builder.indexed_addRule indexed entry.state rule⟩
  rw [Builder.addRule]
  cases found : builder.index.find? entry.state with
  | some position => exact groups.modify indexed (Rule.of_build built) found
  | none => exact groups.snoc indexed (Rule.of_build built) found

/-- **All entries** are grouped in the end. -/
theorem groups_foldlM {before entries : List RuleEntry} {builder last : Builder}
    (groups : Groups before builder.states) (indexed : Indexed builder.states builder.index)
    (run : entries.foldlM addEntry builder = .ok last) :
    Groups (before ++ entries) last.states ∧ Indexed last.states last.index := by
  -- the entries that are done move from one list to the other
  induction entries generalizing before builder with
  | nil =>
      obtain rfl : builder = last := Except.ok.inj run
      rw [List.append_nil]
      exact ⟨groups, indexed⟩
  | cons entry entries ih =>
      rw [List.foldlM_cons] at run
      obtain ⟨next, added, run⟩ := Except.bind_eq_ok_iff.1 run
      have ⟨nextGroups, nextIndexed⟩ := groups_addEntry groups indexed added
      rw [← List.singleton_append, ← List.append_assoc]
      exact ih nextGroups nextIndexed run

/-- **Grouping.**  The states of a compiled model are the distinct states that rules name, in the order in
which they first do.  The rules of a state are those of the entries that name it, each once and in their
order.  A state is found by its name, and the lexer starts in the first declared state. -/
theorem compile_groups {specification : Specification} {model : Model}
    (compiled : compile specification = .ok model) :
    model.states.map State.name = (specification.rules.map RuleEntry.state).eraseDups ∧
      (∀ state ∈ model.states, List.Forall₂ Rule.Of
        (specification.rules.filter fun entry => entry.state = state.name) state.rules) ∧
      (∀ name, model.state? name = model.states.find? fun state => state.name = name) ∧
      ∃ first rest start, specification.states = first :: rest ∧ start.name = first ∧
        model.startState? = some start ∧ model.state? first = some start := by
  obtain ⟨builder, first, rest, run, declared, assembled⟩ := compile_eq_ok_iff.1 compiled
  have ⟨groups, indexed⟩ := groups_foldlM .nil .nil run
  obtain ⟨position, found, -, rfl⟩ := assemble_eq_ok_iff.1 assembled
  obtain ⟨start, known, named⟩ := indexed.find?_eq_some_iff.1 found
  refine ⟨groups.names, groups.rules, indexed.state?_eq, first, rest, start, declared, named,
    known, ?_⟩
  rw [state?, position?, found, Option.bind_some]
  exact known

/-- Two states whose rules alternate, the second of which is declared first. -/
theorem compile_groups_alternating :
    let specification : Specification :=
      ⟨[], [['B'], ['A']], [],
        [⟨['A'], ['a'], ['-'], []⟩, ⟨['B'], ['b'], ['-'], []⟩, ⟨['A'], ['c'], ['-'], []⟩]⟩
    ∃ model, compile specification = .ok model ∧
      model.states.map State.name = (specification.rules.map RuleEntry.state).eraseDups ∧
      (∀ state ∈ model.states, List.Forall₂ Rule.Of
        (specification.rules.filter fun entry => entry.state = state.name) state.rules) ∧
      (∀ name, model.state? name = model.states.find? fun state => state.name = name) ∧
      ∃ first rest start, specification.states = first :: rest ∧ start.name = first ∧
        model.startState? = some start ∧ model.state? first = some start :=
  ⟨_, rfl, compile_groups rfl⟩

end Model

end Lexer
