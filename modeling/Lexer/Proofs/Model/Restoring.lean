import Lexer.Proofs.Model.Declarations

/-! # Which states are restored

States from outside may violate what a model needs in many places at once.  **The violations stand in an order**:
first the names that are there before, then the defects of the automata, state by state, rule by rule and node by
node, then the start, then the targets.  Restoring goes through the states part by part and stops at the first
violation that it meets, and that is the first one of all.  So states are restored exactly if nothing is
violated, which is what a consistent model asks for: distinct names, automata that refer to their own nodes and
can be searched, a start and targets that are there. -/

namespace Lexer

/-! ## (1) Defects of an automaton -/

/-- **An ascending set**: no range is empty, and every range ends before all later ones start. -/
def CharSet.Ascending (set : CharSet) : Prop :=
  (∀ range ∈ set.ranges.toList, range.first ≤ range.last) ∧
    set.ranges.toList.Pairwise fun left right => left.last < right.first

instance (set : CharSet) : Decidable set.Ascending :=
  inferInstanceAs (Decidable (_ ∧ _))

/-- The local check finds the ascending sets. -/
theorem CharSet.wellFormed_iff_ascending {set : CharSet} : set.wellFormed = true ↔ set.Ascending :=
  CharSet.wellFormed_iff

namespace Automaton

/-- All defects of a node at some position: targets that are no nodes, and sets that are not ascending. -/
def nodeDefects (count position : Nat) (node : Node) : List Defect :=
  (node.targets.filter fun target => count ≤ target).map (.target position · count) ++
    (node.edges.filter fun edge => ¬edge.chars.Ascending).map fun _ => .chars position

/-- **All defects** of an automaton, in order. -/
def defects (automaton : Automaton) : List Defect :=
  let count := automaton.nodes.length
  (if automaton.start < count ∧ automaton.finish < count then []
    else [.ends automaton.start automaton.finish count]) ++
    automaton.nodes.zipIdx.flatMap fun (node, position) => nodeDefects count position node

/-- **A usable automaton**: everything that it refers to is one of its nodes, and its sets are ascending. -/
structure Usable (automaton : Automaton) : Prop where
  /-- The start is a node. -/
  start : automaton.start < automaton.nodes.length
  /-- The end is a node. -/
  finish : automaton.finish < automaton.nodes.length
  /-- Jumps lead to nodes. -/
  jumps : ∀ node ∈ automaton.nodes, ∀ target ∈ node.jumps, target < automaton.nodes.length
  /-- Edges lead to nodes. -/
  edges : ∀ node ∈ automaton.nodes, ∀ edge ∈ node.edges, edge.target < automaton.nodes.length
  /-- The sets of the edges are ascending. -/
  sets : ∀ node ∈ automaton.nodes, ∀ edge ∈ node.edges, edge.chars.Ascending

/-- The first defect of a node is a target that is no node, or else a set that is not ascending. -/
theorem head?_nodeDefects (count position : Nat) (node : Node) :
    (nodeDefects count position node).head? =
      ((node.targets.find? fun target => count ≤ target).map (.target position · count)).or
        ((node.edges.find? fun edge => ¬edge.chars.Ascending).map fun _ => .chars position) := by
  rw [nodeDefects, List.head?_append, List.head?_map, List.head?_map, List.head?_filter,
    List.head?_filter]

/-- The first defect of some nodes is the first of all their defects. -/
theorem nodesDefect?_eq_head? (count position : Nat) (nodes : List Node) :
    nodesDefect? count position nodes =
      ((nodes.zipIdx position).flatMap fun (node, position) =>
        nodeDefects count position node).head? := by
  induction nodes generalizing position with
  | nil => rfl
  | cons node nodes ih =>
      rw [nodesDefect?, List.zipIdx_cons, List.flatMap_cons, List.head?_append, head?_nodeDefects]
      cases node.targets.find? fun target => count ≤ target with
      | some target => rfl
      | none =>
          have formed : (node.edges.all fun edge => edge.chars.wellFormed) = true ↔
              node.edges.find? (fun edge => ¬edge.chars.Ascending) = none := by
            rw [List.all_eq_true, List.find?_eq_none]
            simp only [CharSet.wellFormed_iff_ascending, decide_eq_true_iff, not_not]
          cases found : node.edges.find? fun edge => ¬edge.chars.Ascending with
          | none =>
              rw [if_pos (formed.2 found), ih]
              rfl
          | some edge =>
              have malformed : ¬(node.edges.all fun edge => edge.chars.wellFormed) = true := by
                rw [formed, found]
                exact Option.some_ne_none edge
              rw [if_neg malformed]
              rfl

/-- **The first defect** of an automaton is the first of all its defects. -/
theorem defect?_eq_head? (automaton : Automaton) : automaton.defect? = automaton.defects.head? := by
  rw [defect?, defects]
  by_cases ends : automaton.start < automaton.nodes.length ∧
      automaton.finish < automaton.nodes.length
  · rw [if_pos ends, if_pos ends, List.nil_append, nodesDefect?_eq_head?]
  · rw [if_neg ends, if_neg ends]
    rfl

/-- **An automaton is usable** exactly if it has no defect. -/
theorem defects_eq_nil_iff {automaton : Automaton} : automaton.defects = [] ↔ automaton.Usable := by
  rw [← List.head?_eq_none_iff, ← defect?_eq_head?, defect?_eq_none_iff_nodes]
  simp only [forall_mem_targets_iff, CharSet.wellFormed_iff_ascending]
  constructor
  · rintro ⟨⟨start, finish⟩, nodes⟩
    exact ⟨start, finish, fun node member => (nodes node member).1.1,
      fun node member => (nodes node member).1.2, fun node member => (nodes node member).2⟩
  · intro usable
    exact ⟨⟨usable.start, usable.finish⟩, fun node member =>
      ⟨⟨usable.jumps node member, usable.edges node member⟩, usable.sets node member⟩⟩

end Automaton

namespace Model

open Specification (repeatedAfter repeatedNames)

/-! ## (2) Violations -/

/-- The rules whose automata have defects, once for each defect. -/
def unsoundRules (states : List State) : List RestoreFault :=
  states.flatMap fun state => state.rules.flatMap fun rule =>
    rule.automaton.defects.map (.unsound rule.pattern state.name)

/-- What is missing: the start, if it is the name of no state, and the targets that are the name of none. -/
def missing (states : List State) (start : Text) : List Fault :=
  let names := states.map State.name
  (if names.contains start then [] else [.unknownStart start]) ++
    ((changes states).filter fun change => !names.contains change.2).map
      fun change => .unknownTarget change.1 change.2

/-- **All violations** of states from outside and the name of their start, in order. -/
def violations (states : List State) (start : Text) : List RestoreFault :=
  (repeatedNames (states.map State.name)).map .duplicateState ++
    (unsoundRules states ++ (missing states start).map .model)

/-- **States that can be restored.** -/
structure Restorable (states : List State) (start : Text) : Prop where
  /-- The names of the states are distinct. -/
  names : (states.map State.name).Nodup
  /-- The automata of all rules are usable. -/
  automata : ∀ state ∈ states, ∀ rule ∈ state.rules, rule.automaton.Usable
  /-- The start is the name of a state. -/
  start : start ∈ states.map State.name
  /-- Every state that a rule changes to is there. -/
  targets : ∀ state ∈ states, ∀ rule ∈ state.rules, ∀ target,
    .enter target ∈ rule.actions → target ∈ states.map State.name

/-- The first name that is not new stops the indexing, which goes to the end without one. -/
theorem indexFrom_cases {states : List State} {index : Index} {position : Nat} {earlier : List Text}
    (distinct : earlier.Nodup) (known : ∀ name, index.has name = true ↔ name ∈ earlier) :
    (∃ name, (repeatedAfter earlier (states.map State.name)).head? = some name ∧
      indexFrom index position states = .error (.duplicateState name)) ∨
    repeatedAfter earlier (states.map State.name) = [] ∧
      ∃ result, indexFrom index position states = .ok result := by
  induction states generalizing index position earlier with
  | nil => exact .inr ⟨rfl, index, rfl⟩
  | cons state states ih =>
      rw [List.map_cons, repeatedAfter, indexFrom]
      by_cases member : state.name ∈ earlier
      · rw [if_pos (List.count_eq_one_of_mem distinct member), if_pos ((known state.name).2 member)]
        exact .inl ⟨state.name, rfl, rfl⟩
      · have new : ¬index.has state.name = true := by rwa [known]
        rw [if_neg (by rw [List.count_eq_zero_of_not_mem member]; decide), if_neg new]
        refine ih (List.nodup_cons.2 ⟨member, distinct⟩) fun name => ?_
        rw [List.mem_cons, ← known, Index.has, Index.has]
        by_cases same : name = state.name
        · rw [same, Index.find?_insert_self]
          simp
        · rw [Index.find?_insert_of_ne same, or_iff_right same]

/-- The first rule whose automaton has a defect is the first of all of them. -/
theorem unsoundRule?_eq_head? (state : Text) (rules : List Rule) :
    unsoundRule? state rules =
      (rules.flatMap fun rule => rule.automaton.defects.map (.unsound rule.pattern state)).head? := by
  induction rules with
  | nil => rfl
  | cons rule rules ih =>
      rw [unsoundRule?, List.flatMap_cons, List.head?_append, List.head?_map,
        ← Automaton.defect?_eq_head?, ih]
      cases rule.automaton.defect? with
      | none => rfl
      | some defect => rfl

/-- The first unsound rule of some states is the first of all of them. -/
theorem unsound?_eq_head? (states : List State) : unsound? states = (unsoundRules states).head? := by
  induction states with
  | nil => rfl
  | cons state states ih =>
      rw [unsound?, unsoundRules, List.flatMap_cons, List.head?_append, ← unsoundRule?_eq_head?, ih,
        unsoundRules]
      cases unsoundRule? state.name state.rules with
      | none => rfl
      | some fault => rfl

/-! ## (3) Restoring -/

/-- **Assembling indexed states** stops at the first violation of the start or of a target. -/
theorem assemble_cases {states : List State} {index : Index} (indexed : Indexed states index)
    (start : Text) :
    (∃ fault, (missing states start).head? = some fault ∧
      assemble states index start = .error fault) ∨
    missing states start = [] ∧ ∃ model, assemble states index start = .ok model := by
  rw [assemble]
  cases found : index.find? start with
  | none =>
      refine .inl ⟨.unknownStart start, ?_, rfl⟩
      have absent : ¬(states.map State.name).contains start = true := by
        rw [List.contains_iff_mem]
        exact indexed.find?_eq_none_iff.1 found
      rw [missing, if_neg absent]
      rfl
  | some position =>
      have there : (states.map State.name).contains start = true := by
        rw [List.contains_iff_mem, ← indexed.has_iff, Index.has, found, Option.isSome_some]
      have first : (missing states start).head? =
          (unknownTarget? index states).map fun change => .unknownTarget change.1 change.2 := by
        rw [missing, if_pos there, List.nil_append, List.head?_map, List.head?_filter,
          indexed.unknownTarget?_eq]
        simp only [List.contains_eq_mem, decide_not]
      cases unknown : unknownTarget? index states with
      | some change =>
          rw [unknown] at first
          exact .inl ⟨_, first, rfl⟩
      | none =>
          rw [unknown] at first
          exact .inr ⟨List.head?_eq_none_iff.1 first, _, rfl⟩

/-- **Restoring** stops at the first violation, and gives a model if there is none. -/
theorem restore_cases (states : List State) (start : Text) :
    (∃ fault, (violations states start).head? = some fault ∧
      restore states start = .error fault) ∨
    violations states start = [] ∧ ∃ model, restore states start = .ok model := by
  rw [violations, restore, List.head?_append, List.head?_append, List.head?_map, List.head?_map,
    ← unsound?_eq_head?]
  have known : ∀ name, Index.has [] name = true ↔ name ∈ ([] : List Text) := by
    intro name
    simp [Index.has, Index.find?]
  rcases @indexFrom_cases states [] 0 [] List.nodup_nil known with
    ⟨name, repeated, stopped⟩ | ⟨distinct, index, indexed⟩
  · rw [repeatedNames, repeated, stopped]
    exact .inl ⟨_, rfl, rfl⟩
  · rw [repeatedNames, distinct, indexed]
    cases unsound : unsound? states with
    | some fault => exact .inl ⟨_, rfl, rfl⟩
    | none =>
        have sound : unsoundRules states = [] := by
          rw [← List.head?_eq_none_iff, ← unsound?_eq_head?, unsound]
        simp only
        rcases assemble_cases indexed start with ⟨fault, first, failed⟩ | ⟨nothing, model, assembled⟩
        · rw [first, failed]
          exact .inl ⟨_, rfl, rfl⟩
        · rw [nothing, sound, assembled]
          exact .inr ⟨rfl, model, rfl⟩

/-- **Nothing is violated** exactly if states can be restored. -/
theorem violations_eq_nil_iff {states : List State} {start : Text} :
    violations states start = [] ↔ Restorable states start := by
  have nothing : missing states start = [] ↔ start ∈ states.map State.name ∧
      ∀ change ∈ changes states, change.2 ∈ states.map State.name := by
    rw [missing, List.append_eq_nil_iff, List.map_eq_nil_iff, List.filter_eq_nil_iff]
    simp only [List.contains_iff_mem, Bool.not_eq_true', Bool.not_eq_false, ite_eq_left_iff,
      reduceCtorEq, imp_false, not_not]
  have sound : unsoundRules states = [] ↔
      ∀ state ∈ states, ∀ rule ∈ state.rules, rule.automaton.Usable := by
    rw [unsoundRules, List.flatMap_eq_nil_iff]
    simp only [List.flatMap_eq_nil_iff, List.map_eq_nil_iff, Automaton.defects_eq_nil_iff]
  have known : (∀ change ∈ changes states, change.2 ∈ states.map State.name) ↔
      ∀ state ∈ states, ∀ rule ∈ state.rules, ∀ target, .enter target ∈ rule.actions →
        target ∈ states.map State.name := by
    simp only [changes, List.forall_mem_flatMap, List.forall_mem_map, mem_targets_iff]
    constructor
    · intro known state member rule isRule target enters
      exact known state member target ⟨rule, isRule, enters⟩
    · rintro known state member target ⟨rule, isRule, enters⟩
      exact known state member rule isRule target enters
  rw [violations, List.append_eq_nil_iff, List.append_eq_nil_iff, List.map_eq_nil_iff,
    List.map_eq_nil_iff, Specification.repeatedNames_eq_nil_iff, nothing, sound, known]
  constructor
  · rintro ⟨names, automata, start, targets⟩
    exact ⟨names, automata, start, targets⟩
  · intro restorable
    exact ⟨restorable.names, restorable.automata, restorable.start, restorable.targets⟩

/-- **States are restored** exactly if their names are distinct, all automata are usable, and the start and all
targets are names of states.  Then the model has these states, in the same order, and this start; otherwise the
first violation is reported: names that are there before come first, then automata by states, rules and nodes,
then the start, then targets. -/
theorem restore_first_violation (states : List State) (start : Text) :
    ((∃ model, restore states start = .ok model) ↔ Restorable states start) ∧
    (∀ model, restore states start = .ok model → model.states = states ∧ model.startName = start) ∧
    ∀ fault, restore states start = .error fault ↔ (violations states start).head? = some fault := by
  refine ⟨?_, fun model restored => ?_, fun fault => ?_⟩
  · rw [← violations_eq_nil_iff]
    rcases restore_cases states start with ⟨fault, first, failed⟩ | ⟨nothing, model, restored⟩
    · rw [failed, ← List.head?_eq_none_iff, first]
      exact ⟨nofun, nofun⟩
    · exact iff_of_true ⟨model, restored⟩ nothing
  · obtain ⟨index, indexed, -, assembled⟩ := restore_eq_ok_iff.1 restored
    exact ⟨(consistent_of_restore restored).2, startName_of_assemble indexed assembled⟩
  · rcases restore_cases states start with ⟨first, isFirst, failed⟩ | ⟨nothing, model, restored⟩
    · rw [failed, isFirst, Except.error.injEq, Option.some.injEq]
    · rw [restored, nothing]
      exact ⟨nofun, nofun⟩

/-- A name that is there before goes before a start that is missing. -/
example : restore [⟨['S'], []⟩, ⟨['S'], []⟩] ['T'] = .error (.duplicateState ['S']) := by
  decide

end Model

end Lexer
