import Lexer.Model.Builder
import Lexer.Model.Restore

/-! # The index of some states

A builder keeps the positions of its states as they come into being, and a model from outside gets them
from the names of its states.  Both arrive at the same index: **states are indexed** if going through them
in order gives the index.  Their names are then distinct, and a name has the position of its state.  The
entries of an index stand in the order of their names, one for each state. -/

namespace Lexer

namespace Index

/-! ## (1) Entries in order -/

/-- **Ordered** entries: the names ascend. -/
def Ordered (index : Index) : Prop :=
  index.Pairwise fun earlier later => earlier.1 < later.1

/-- A name that is not found is not the first one. -/
theorem unknown_cons {name other : Text} {its : Nat} {rest : Index}
    (unknown : find? ((other, its) :: rest) name = none) :
    name ≠ other ∧ find? rest name = none := by
  have different : name ≠ other := by
    rintro rfl
    simp [find?] at unknown
  rw [find?, List.lookup_cons, beq_eq_false_iff_ne.2 different] at unknown
  exact ⟨different, unknown⟩

/-- Inserting a new name adds one entry. -/
theorem perm_insert {name : Text} {position : Nat} {index : Index}
    (unknown : index.find? name = none) :
    (insert name position index).Perm ((name, position) :: index) := by
  induction index with
  | nil => exact .refl _
  | cons entry rest ih =>
      have ⟨different, absent⟩ := unknown_cons unknown
      rw [insert, if_neg different]
      split
      · exact .refl _
      · exact ((ih absent).cons _).trans (.swap _ _ _)

/-- Inserting a new name keeps the order. -/
theorem Ordered.insert {index : Index} (ordered : index.Ordered) {name : Text} (position : Nat)
    (unknown : index.find? name = none) : (insert name position index).Ordered := by
  induction index with
  | nil => exact List.pairwise_singleton _ _
  | cons entry rest ih =>
      have ⟨different, absent⟩ := unknown_cons unknown
      have ⟨first, behind⟩ := List.pairwise_cons.1 ordered
      rw [Index.insert, if_neg different]
      split
      · next less =>
          refine List.pairwise_cons.2
            ⟨List.forall_mem_cons.2 ⟨less, fun later member => ?_⟩, ordered⟩
          exact List.lt_trans less (first later member)
      · next notLess =>
          refine List.pairwise_cons.2 ⟨fun later member => ?_, ih behind absent⟩
          rcases List.mem_cons.1 ((perm_insert absent).mem_iff.1 member) with rfl | old
          · refine Decidable.byContradiction fun notAfter => different ?_
            exact List.le_antisymm (List.not_lt.1 notAfter) (List.not_lt.1 notLess)
          · exact first later old

end Index

namespace Model

/-! ## (2) Going through the states -/

/-- A name is found where an earlier index or a state has it. -/
theorem find?_indexFrom {states : List State} {index result : Index} {position : Nat}
    (indexed : indexFrom index position states = .ok result) {name : Text} {found : Nat} :
    result.find? name = some found ↔ index.find? name = some found ∨
      ∃ offset state, states[offset]? = some state ∧ state.name = name ∧
        found = position + offset := by
  induction states generalizing index position with
  | nil =>
      obtain rfl : index = result := Except.ok.inj indexed
      simp
  | cons state rest ih =>
      rw [indexFrom] at indexed
      split at indexed
      · exact nomatch indexed
      · next unknown =>
          rw [ih indexed]
          -- the state is the one that is looked for, or the name is found further on
          by_cases same : name = state.name
          · subst same
            have absent : index.find? state.name = none := by
              simpa [Index.has] using unknown
            rw [Index.find?_insert_self, absent]
            constructor
            · rintro (here | ⟨offset, other, known, named, rfl⟩)
              · exact .inr ⟨0, state, rfl, rfl, (Option.some.inj here).symm⟩
              · exact .inr ⟨offset + 1, other, known, named, by omega⟩
            · rintro (here | ⟨_ | offset, other, known, named, rfl⟩)
              · exact nomatch here
              · exact .inl rfl
              · exact .inr ⟨offset, other, known, named, by omega⟩
          · rw [Index.find?_insert_of_ne same]
            refine or_congr_right ⟨?_, ?_⟩
            · rintro ⟨offset, other, known, named, rfl⟩
              exact ⟨offset + 1, other, known, named, by omega⟩
            · rintro ⟨_ | offset, other, known, named, rfl⟩
              · obtain rfl : state = other := Option.some.inj known
                exact absurd named.symm same
              · exact ⟨offset, other, known, named, by omega⟩

/-- The index of some states depends on their names only. -/
theorem indexFrom_congr {states others : List State}
    (names : states.map State.name = others.map State.name) (index : Index) (position : Nat) :
    (indexFrom index position states).toOption = (indexFrom index position others).toOption := by
  induction states generalizing others index position with
  | nil =>
      obtain rfl : others = [] := by simpa using names.symm
      rfl
  | cons state rest ih =>
      cases others with
      | nil => simp at names
      | cons other others =>
          rw [List.map_cons, List.map_cons, List.cons.injEq] at names
          rw [indexFrom, indexFrom, names.1]
          split
          · rfl
          · exact ih names.2 _ _

/-- One more state goes to the end of the index. -/
theorem indexFrom_append_singleton {states : List State} {index result : Index} {position : Nat}
    {state : State} (indexed : indexFrom index position states = .ok result)
    (unknown : result.find? state.name = none) :
    indexFrom index position (states ++ [state]) =
      .ok (result.insert state.name (position + states.length)) := by
  induction states generalizing index position with
  | nil =>
      obtain rfl : index = result := Except.ok.inj indexed
      have fresh : index.has state.name = false := by rw [Index.has, unknown, Option.isSome_none]
      rw [List.nil_append, indexFrom, if_neg (by rw [fresh]; exact Bool.false_ne_true)]
      rfl
  | cons first rest ih =>
      rw [List.cons_append, indexFrom]
      rw [indexFrom] at indexed
      split at indexed
      · exact nomatch indexed
      · next new =>
          rw [if_neg new, ih indexed, List.length_cons]
          congr 2
          omega

/-- The entries of an index, which are one for each state, and in the order of their names. -/
theorem entries_indexFrom {states : List State} {index result : Index} {position : Nat}
    (indexed : indexFrom index position states = .ok result) (ordered : index.Ordered) :
    result.Ordered ∧
      result.Perm (index ++ (states.map State.name).zipIdx position) := by
  induction states generalizing index position with
  | nil =>
      obtain rfl : index = result := Except.ok.inj indexed
      exact ⟨ordered, by simp⟩
  | cons state rest ih =>
      rw [indexFrom] at indexed
      split at indexed
      · exact nomatch indexed
      · next unknown =>
          have absent : index.find? state.name = none := by simpa [Index.has] using unknown
          have ⟨inOrder, entries⟩ := ih indexed (ordered.insert position absent)
          refine ⟨inOrder, entries.trans ?_⟩
          -- the entry of the state moves from the old index to those of the states
          rw [List.map_cons, List.zipIdx_cons]
          exact ((Index.perm_insert absent).append_right _).trans List.perm_middle.symm

/-! ## (3) Indexed states -/

/-- **Indexed states**: going through them in order gives the index. -/
def Indexed (states : List State) (index : Index) : Prop :=
  indexFrom [] 0 states = .ok index

namespace Indexed

variable {states others : List State} {index : Index}

/-- Without states there is no name. -/
theorem nil : Indexed [] [] :=
  rfl

/-- **A name has the position of its state.** -/
theorem find?_eq_some_iff (indexed : Indexed states index) {name : Text} {position : Nat} :
    index.find? name = some position ↔ ∃ state, states[position]? = some state ∧
      state.name = name := by
  rw [find?_indexFrom indexed]
  constructor
  · rintro (found | ⟨offset, state, known, named, rfl⟩)
    · exact nomatch found
    · rw [Nat.zero_add]
      exact ⟨state, known, named⟩
  · rintro ⟨state, known, named⟩
    exact .inr ⟨position, state, known, named, (Nat.zero_add position).symm⟩

/-- A name without a position is not the name of a state. -/
theorem find?_eq_none_iff (indexed : Indexed states index) {name : Text} :
    index.find? name = none ↔ name ∉ states.map State.name := by
  rw [Option.eq_none_iff_forall_ne_some]
  constructor
  · intro unknown member
    obtain ⟨state, member, named⟩ := List.mem_map.1 member
    obtain ⟨position, known⟩ := List.mem_iff_getElem?.1 member
    exact unknown position (indexed.find?_eq_some_iff.2 ⟨state, known, named⟩)
  · intro unknown position found
    obtain ⟨state, known, rfl⟩ := indexed.find?_eq_some_iff.1 found
    exact unknown (List.mem_map_of_mem (List.mem_of_getElem? known))

/-- An indexed name is the name of a state. -/
theorem has_iff (indexed : Indexed states index) {name : Text} :
    index.has name = true ↔ name ∈ states.map State.name := by
  rw [Index.has, Option.isSome_iff_ne_none, Ne, indexed.find?_eq_none_iff, Classical.not_not]

/-- Two states of one name are at one position. -/
theorem unique (indexed : Indexed states index) {first second : Nat} {left right : State}
    (knownLeft : states[first]? = some left) (knownRight : states[second]? = some right)
    (named : left.name = right.name) : first = second := by
  have found := indexed.find?_eq_some_iff.2 ⟨left, knownLeft, named⟩
  have again := indexed.find?_eq_some_iff.2 ⟨right, knownRight, rfl⟩
  exact Option.some.inj (found.symm.trans again)

/-- **Names are distinct.** -/
theorem nodup (indexed : Indexed states index) : (states.map State.name).Nodup := by
  rw [List.Nodup, List.pairwise_iff_getElem]
  intro first second insideFirst insideSecond before same
  rw [List.getElem_map, List.getElem_map] at same
  rw [List.length_map] at insideFirst insideSecond
  have place := indexed.unique (List.getElem?_eq_getElem insideFirst)
    (List.getElem?_eq_getElem insideSecond) same
  omega

/-- **Each state has one entry**, its name with its position. -/
theorem perm (indexed : Indexed states index) : index.Perm (states.map State.name).zipIdx :=
  (entries_indexFrom indexed List.Pairwise.nil).2

/-- The entries stand in the order of their names. -/
theorem ordered (indexed : Indexed states index) : index.Ordered :=
  (entries_indexFrom indexed List.Pairwise.nil).1

/-- States of the same names have the same index. -/
theorem congr (indexed : Indexed states index)
    (names : states.map State.name = others.map State.name) : Indexed others index := by
  have same := indexFrom_congr names [] 0
  rw [indexed] at same
  unfold Indexed
  cases result : indexFrom [] 0 others with
  | error fault =>
      rw [result] at same
      exact nomatch same
  | ok its =>
      rw [result] at same
      rw [Option.some.inj same]

/-- **One more state** goes to the end of the index. -/
theorem snoc (indexed : Indexed states index) {state : State}
    (unknown : index.find? state.name = none) :
    Indexed (states ++ [state]) (index.insert state.name states.length) := by
  have appended := indexFrom_append_singleton indexed unknown
  rw [Nat.zero_add] at appended
  exact appended

/-- A state is found by its name. -/
theorem state?_eq (indexed : Indexed states index) {start : Nat} (name : Text) :
    (⟨states, index, start⟩ : Model).state? name = states.find? fun state => state.name = name := by
  rw [state?, position?]
  cases found : index.find? name with
  | none =>
      rw [Option.bind_none, eq_comm, List.find?_eq_none]
      intro state member same
      exact indexed.find?_eq_none_iff.1 found
        (of_decide_eq_true same ▸ List.mem_map_of_mem member)
  | some position =>
      obtain ⟨state, known, named⟩ := indexed.find?_eq_some_iff.1 found
      rw [Option.bind_some, known, eq_comm, List.find?_eq_some_iff_getElem]
      obtain ⟨inside, rfl⟩ := List.getElem?_eq_some_iff.1 known
      refine ⟨decide_eq_true named, position, inside, rfl, fun earlier before => ?_⟩
      rw [Bool.not_eq_true', decide_eq_false_iff_not]
      -- an earlier state of the same name would have the same position
      intro same
      have here := indexed.unique known
        (List.getElem?_eq_getElem (Nat.lt_trans before inside)) (named.trans same.symm)
      omega

end Indexed

end Model

namespace Builder

open Model

/-- An added rule changes no name. -/
theorem map_name_modify (states : List State) (position : Nat) (rule : Rule) :
    (states.modify position (State.addRule rule)).map State.name = states.map State.name := by
  apply List.ext_getElem?
  intro offset
  rw [List.getElem?_map, List.getElem?_modify, List.getElem?_map]
  cases states[offset]? with
  | none => rfl
  | some state =>
      rw [Option.map_eq_map, Option.map_some, Option.map_some, Option.map_some]
      split
      · rfl
      · rfl

/-- **A builder keeps its states indexed.** -/
theorem indexed_addRule {builder : Builder} (indexed : Indexed builder.states builder.index)
    (name : Text) (rule : Rule) :
    Indexed (builder.addRule name rule).states (builder.addRule name rule).index := by
  rw [addRule]
  split
  · exact indexed.congr (map_name_modify builder.states _ rule).symm
  · next unknown => exact indexed.snoc unknown

end Builder

end Lexer
