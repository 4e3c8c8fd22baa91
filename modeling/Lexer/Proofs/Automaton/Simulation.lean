import Lexer.Proofs.Automaton.Soundness

/-! # Running automata that passed the check

**A careful run** looks at a node only where there is one, and gives up otherwise.  The run itself does not look
so carefully: where there is no node, it finds no jumps and no edges.  An automaton without a defect makes no
difference between the two, since every position that a closure or a character leads to is the position of a
node.  So the check is all that a run needs, whatever the shape of the automaton: what it finds is the longest
start of the input that labels a path from the start to the end. -/

namespace Lexer.Automaton

/-! ## (1) Careful runs -/

/-- A closure that gives up at a position without a node. -/
def carefulClosureFrom (automaton : Automaton) (seen : List Nat) :
    (pending : List Nat) → Option (List Nat)
  | [] => some seen
  | position :: pending =>
      if position < automaton.nodes.length then
        let fresh := automaton.freshJumps seen position
        carefulClosureFrom automaton (fresh ++ seen) (fresh ++ pending)
      else none
  termination_by pending => ((automaton.unseen seen).length, pending.length)
  decreasing_by
    by_cases none : automaton.freshJumps seen position = []
    · simp only [none, List.nil_append]
      exact Prod.Lex.right _ (by simp)
    · exact Prod.Lex.left _ _ (length_unseen_lt none)

/-- The careful closure of some positions. -/
def carefulClosure (automaton : Automaton) (positions : List Nat) : Option (List Nat) :=
  automaton.carefulClosureFrom positions positions

/-- What a character leads to, unless one of the positions has no node. -/
def carefulAdvance (automaton : Automaton) (positions : List Nat) (c : Char) : Option (List Nat) :=
  if ∀ position ∈ positions, position < automaton.nodes.length then
    some (automaton.advance positions c)
  else none

/-- A careful run from some positions. -/
def carefulLongestFrom (automaton : Automaton) (positions : List Nat) (length : Nat)
    (best : Option Nat) : (input : Text) → Option (Option Nat)
  | [] => some best
  | c :: rest => do
      match ← automaton.carefulAdvance positions c with
      | [] => some best
      | reached =>
          let positions ← automaton.carefulClosure reached
          let length := length + c.utf8Size
          carefulLongestFrom automaton positions length
            (if automaton.finish ∈ positions then some length else best) rest

/-- **A careful run**: the longest match, or nothing if the run came to a position without a node. -/
def carefulLongest (automaton : Automaton) (input : Text) : Option (Option Nat) := do
  let positions ← automaton.carefulClosure [automaton.start]
  automaton.carefulLongestFrom positions 0
    (if automaton.finish ∈ positions then some 0 else none) input

/-- A jump to a position without a node is the end of a careful run. -/
example : (⟨[⟨0, [7], []⟩], 0, 0⟩ : Automaton).carefulLongest ['a'] = none := by
  cbv

/-- A careful closure that does not give up is the closure. -/
theorem closureFrom_eq_of_careful {automaton : Automaton} {seen pending reached : List Nat}
    (careful : automaton.carefulClosureFrom seen pending = some reached) :
    automaton.closureFrom seen pending = reached := by
  fun_induction carefulClosureFrom automaton seen pending with
  | case1 seen =>
      rw [closureFrom]
      exact Option.some.inj careful
  | case2 seen position pending inside fresh ih =>
      rw [closureFrom]
      exact ih careful
  | case3 seen position pending outside => cases careful

/-- A careful run from some positions that does not give up is the run. -/
theorem longestFrom_eq_of_careful {automaton : Automaton} {positions : List Nat} {length : Nat}
    {best result : Option Nat} {input : Text}
    (careful : automaton.carefulLongestFrom positions length best input = some result) :
    automaton.longestFrom positions length best input = result := by
  induction input generalizing positions length best with
  | nil =>
      rw [longestFrom]
      exact Option.some.inj careful
  | cons c rest ih =>
      rw [carefulLongestFrom, carefulAdvance] at careful
      rw [longestFrom_cons]
      by_cases inside : ∀ position ∈ positions, position < automaton.nodes.length
      · rw [if_pos inside] at careful
        cases moved : automaton.advance positions c with
        | nil =>
            rw [moved] at careful
            exact Option.some.inj careful
        | cons next others =>
            rw [moved, Option.bind_eq_bind, Option.bind_some] at careful
            obtain ⟨closed, closure, careful⟩ := Option.bind_eq_some_iff.1 careful
            rw [if_neg (List.cons_ne_nil next others), Automaton.closure,
              closureFrom_eq_of_careful closure]
            exact ih careful
      · rw [if_neg inside] at careful
        cases careful

/-- **A careful run** that does not give up finds the longest match. -/
theorem longest_eq_of_careful {automaton : Automaton} {input : Text} {result : Option Nat}
    (careful : automaton.carefulLongest input = some result) : automaton.longest input = result := by
  obtain ⟨positions, closure, careful⟩ := Option.bind_eq_some_iff.1 careful
  rw [longest, Automaton.closure, closureFrom_eq_of_careful closure]
  exact longestFrom_eq_of_careful careful

/-! ## (2) Automata in range -/

namespace InRange

variable {automaton : Automaton} (inRange : automaton.InRange)
include inRange

/-- A closure of positions with nodes looks at nothing else. -/
theorem carefulClosureFrom_eq {seen pending : List Nat}
    (inside : ∀ position ∈ pending, position < automaton.nodes.length) :
    automaton.carefulClosureFrom seen pending = some (automaton.closureFrom seen pending) := by
  fun_induction closureFrom automaton seen pending with
  | case1 seen => rw [carefulClosureFrom]
  | case2 seen position pending fresh ih =>
      rw [List.forall_mem_cons] at inside
      rw [carefulClosureFrom, if_pos inside.1]
      refine ih fun next waits => ?_
      rcases List.mem_append.1 waits with new | waits
      · exact inRange.jumps (mem_freshJumps.1 new).1
      · exact inside.2 next waits

/-- A closure of positions with nodes holds nothing else. -/
theorem lt_length_of_mem_closure {positions : List Nat}
    (inside : ∀ position ∈ positions, position < automaton.nodes.length) :
    ∀ position ∈ automaton.closure positions, position < automaton.nodes.length := by
  intro goal member
  obtain ⟨position, isStart, reaches⟩ := mem_closure_iff.1 member
  cases reaches with
  | refl => exact inside goal isStart
  | tail _ jump => exact inRange.jumps jump

/-- A character leads to positions with nodes only. -/
theorem lt_length_of_mem_advance {positions : List Nat} {c : Char} {next : Nat}
    (member : next ∈ automaton.advance positions c) : next < automaton.nodes.length := by
  rw [advance, List.mem_eraseDups, List.mem_flatMap] at member
  obtain ⟨position, -, reached⟩ := member
  obtain ⟨edge, leaves, rfl⟩ := List.mem_map.1 reached
  exact inRange.edges (List.mem_filter.1 leaves).1

/-- **A run from positions with nodes** is a careful one. -/
theorem carefulLongestFrom_eq {positions : List Nat}
    (inside : ∀ position ∈ positions, position < automaton.nodes.length) (length : Nat)
    (best : Option Nat) (input : Text) :
    automaton.carefulLongestFrom positions length best input =
      some (automaton.longestFrom positions length best input) := by
  induction input generalizing positions length best with
  | nil => rw [carefulLongestFrom, longestFrom]
  | cons c rest ih =>
      rw [carefulLongestFrom, carefulAdvance, if_pos inside, longestFrom_cons]
      have reached : ∀ next ∈ automaton.advance positions c, next < automaton.nodes.length :=
        fun next => inRange.lt_length_of_mem_advance
      cases moved : automaton.advance positions c with
      | nil => rfl
      | cons next others =>
          rw [moved] at reached
          have closure : automaton.carefulClosure (next :: others) =
              some (automaton.closure (next :: others)) := inRange.carefulClosureFrom_eq reached
          have closed := inRange.lt_length_of_mem_closure reached
          rw [if_neg (List.cons_ne_nil _ _), ← ih closed]
          simp only [Option.bind_eq_bind, Option.bind_some, closure]

/-- **A run is a careful one** if the automaton is in range. -/
theorem carefulLongest_eq (input : Text) :
    automaton.carefulLongest input = some (automaton.longest input) := by
  have start : ∀ position ∈ [automaton.start], position < automaton.nodes.length :=
    List.forall_mem_singleton.2 inRange.start
  have closed := inRange.lt_length_of_mem_closure start
  rw [carefulLongest, carefulClosure, inRange.carefulClosureFrom_eq start]
  exact inRange.carefulLongestFrom_eq closed 0 _ input

end InRange

/-! ## (3) Automata that passed the check -/

/-- **Simulation.**  Let an automaton have no defect.  On every input, a run never comes to a position without a
node.  It finds the longest start of the input that labels a path from the start to the end, or nothing if no
start of the input does; and the length that it finds is that of a number of whole characters. -/
theorem longest_of_checked {automaton : Automaton} (checked : automaton.defect? = none)
    (input : Text) :
    automaton.carefulLongest input = some (automaton.longest input) ∧
      (∀ result, automaton.longest input = result ↔
        LongestStart automaton.language input result) ∧
      ∀ length, automaton.longest input = some length →
        ∃ start rest, input = start ++ rest ∧ start.byteLength = length := by
  obtain ⟨inRange, sets⟩ := defect?_eq_none_iff.1 checked
  have longest := longestStart_longest sets input
  refine ⟨inRange.carefulLongest_eq input, fun result => ?_, fun length found => ?_⟩
  · constructor
    · rintro rfl
      exact longest
    · intro other
      exact longest.unique other
  · rw [found] at longest
    obtain ⟨start, ⟨rest, whole⟩, -, same, -⟩ := longest
    exact ⟨start, rest, whole.symm, same⟩

/-- An automaton with a cycle of jumps, a jump from a node to itself, an edge that leads on from the end, an
edge of the empty set and a node that is never reached, on a letter of two bytes and two more letters. -/
theorem longest_of_checked_cyclic :
    let automaton : Automaton :=
      ⟨[⟨0, [0, 1], [⟨.single 'č', 2⟩, ⟨⟨#[]⟩, 3⟩]⟩, ⟨1, [0], []⟩,
        ⟨2, [], [⟨⟨#[⟨'a', 'b'⟩]⟩, 2⟩]⟩, ⟨3, [2], []⟩], 0, 2⟩
    automaton.defect? = none ∧ automaton.longest ['č', 'a', 'x'] = some 3 ∧
      automaton.carefulLongest ['č', 'a', 'x'] = some (automaton.longest ['č', 'a', 'x']) ∧
      (∀ result, automaton.longest ['č', 'a', 'x'] = result ↔
        LongestStart automaton.language ['č', 'a', 'x'] result) ∧
      ∀ length, automaton.longest ['č', 'a', 'x'] = some length →
        ∃ start rest : Text, ['č', 'a', 'x'] = start ++ rest ∧ start.byteLength = length := by
  intro automaton
  have checked : automaton.defect? = none := by decide
  have start : automaton.closure [0] = [1, 0] := by cbv
  have first : automaton.advance [1, 0] 'č' = [2] := by cbv
  have closed : automaton.closure [2] = [2] := by cbv
  have second : automaton.advance [2] 'a' = [2] := by cbv
  have last : automaton.advance [2] 'x' = [] := by cbv
  have found : automaton.longest ['č', 'a', 'x'] = some 3 := by
    rw [longest, start, longestFrom_cons, first, closed, longestFrom_cons, second, closed,
      longestFrom_cons, last]
    decide
  exact ⟨checked, found, longest_of_checked checked ['č', 'a', 'x']⟩

end Lexer.Automaton
