import Lexer.Model.State
import Lexer.Proofs.Automaton.Simulation

/-! # The winner

The rules of a state compete at the start of an input.  **A rule wins** if it has a match, no rule has a longer
one, and every rule in front of it has none or a shorter one.  At most one rule wins.  The search goes through the
rules once and keeps the best match so far: it always holds the one that wins among the rules that were looked at,
so at the end it holds the winner, and nothing exactly if no rule accepts a start of the input.  All this holds
of any rules.  A careful search, which gives up where a run would look at a node that is not there, has no other
winner. -/

namespace Lexer.State

variable {rules : List Rule} {input : Text} {best : Option Match} {rule : Rule} {length : Nat}

/-! ## (1) Winning -/

/-- **A match wins** among some rules. -/
structure Wins (rules : List Rule) (input : Text) (found : Match) : Prop where
  /-- The rule stands at its position. -/
  rule : rules[found.position]? = some found.rule
  /-- The length is that of the longest match of the rule. -/
  length : found.rule.automaton.longest input = some found.length
  /-- No rule has a longer match. -/
  longest : ∀ rule ∈ rules, ∀ length, rule.automaton.longest input = some length →
    length ≤ found.length
  /-- Every rule in front has no match, or a shorter one. -/
  first : ∀ position < found.position, ∀ rule, rules[position]? = some rule →
    ∀ length, rule.automaton.longest input = some length → length < found.length

/-- **The best match** of some rules: one that wins, or nothing if no rule has a match. -/
def Best (rules : List Rule) (input : Text) : Option Match → Prop
  | some found => Wins rules input found
  | none => ∀ rule ∈ rules, rule.automaton.longest input = none

/-- A match that wins does not stand in front of another one: it would be shorter, and at least as long. -/
theorem Wins.not_before {found other : Match} (wins : Wins rules input found)
    (again : Wins rules input other) : ¬found.position < other.position := by
  intro before
  have shorter := again.first found.position before found.rule wins.rule found.length wins.length
  have longer := wins.longest other.rule (List.mem_of_getElem? again.rule) other.length again.length
  exact absurd shorter (Nat.not_lt_of_ge longer)

/-- **At most one match wins.** -/
theorem Wins.unique {found other : Match} (wins : Wins rules input found)
    (again : Wins rules input other) : found = other := by
  obtain ⟨position, rule, length⟩ := found
  obtain ⟨its, otherRule, otherLength⟩ := other
  obtain rfl : position = its :=
    Nat.le_antisymm (Nat.le_of_not_lt (again.not_before wins)) (Nat.le_of_not_lt (wins.not_before again))
  obtain rfl : rule = otherRule := Option.some.inj (wins.rule.symm.trans again.rule)
  obtain rfl : length = otherLength := Option.some.inj (wins.length.symm.trans again.length)
  rfl

/-- **There is one best match.** -/
theorem Best.unique {other : Option Match} (isBest : Best rules input best)
    (again : Best rules input other) : best = other := by
  cases best with
  | none =>
      cases other with
      | none => rfl
      | some found =>
          have unmatched := isBest found.rule (List.mem_of_getElem? again.rule)
          exact nomatch unmatched.symm.trans again.length
  | some found =>
      cases other with
      | none =>
          have unmatched := again found.rule (List.mem_of_getElem? isBest.rule)
          exact nomatch unmatched.symm.trans isBest.length
      | some other => exact congrArg some (Wins.unique isBest again)

/-! ## (2) The search -/

/-- A match goes on winning if one more rule has no longer match. -/
theorem Wins.snoc {found : Match} (wins : Wins rules input found)
    (shorter : ∀ length, rule.automaton.longest input = some length → length ≤ found.length) :
    Wins (rules ++ [rule]) input found where
  rule := by
    rw [List.getElem?_append_left (List.getElem?_eq_some_iff.1 wins.rule).1]
    exact wins.rule
  length := wins.length
  longest other member := by
    rcases List.mem_append.1 member with earlier | last
    · exact wins.longest other earlier
    · rw [List.mem_singleton.1 last]
      exact shorter
  first position before other known := by
    have inside := (List.getElem?_eq_some_iff.1 wins.rule).1
    rw [List.getElem?_append_left (Nat.lt_trans before inside)] at known
    exact wins.first position before other known

/-- The last rule wins if all others have shorter matches, if any. -/
theorem Wins.last (matched : rule.automaton.longest input = some length)
    (longer : ∀ other ∈ rules, ∀ its, other.automaton.longest input = some its → its < length) :
    Wins (rules ++ [rule]) input ⟨rules.length, rule, length⟩ where
  rule := List.getElem?_concat_length
  length := matched
  longest other member its found := by
    rcases List.mem_append.1 member with earlier | last
    · exact Nat.le_of_lt (longer other earlier its found)
    · rw [List.mem_singleton.1 last, matched] at found
      exact Nat.le_of_eq (Option.some.inj found).symm
  first position before other known := by
    rw [List.getElem?_append_left before] at known
    exact longer other (List.mem_of_getElem? known)

/-- **A step**: a rule without a match changes nothing. -/
theorem Best.skip (isBest : Best rules input best) (unmatched : rule.automaton.longest input = none) :
    Best (rules ++ [rule]) input best := by
  cases best with
  | none =>
      intro other member
      rcases List.mem_append.1 member with earlier | last
      · exact isBest other earlier
      · rw [List.mem_singleton.1 last]
        exact unmatched
  | some found => exact Wins.snoc isBest fun length matched => nomatch unmatched.symm.trans matched

/-- **A step**: the match of a later rule is taken if it is longer than the best one so far. -/
theorem Best.better (isBest : Best rules input best)
    (matched : rule.automaton.longest input = some length) :
    Best (rules ++ [rule]) input (some (better best ⟨rules.length, rule, length⟩)) := by
  cases best with
  | none =>
      refine Wins.last matched fun other member its found => ?_
      exact nomatch (isBest other member).symm.trans found
  | some found =>
      show Wins _ _ (if found.length < length then _ else found)
      by_cases longer : found.length < length
      · rw [if_pos longer]
        exact Wins.last matched fun other member its known =>
          Nat.lt_of_le_of_lt (isBest.longest other member its known) longer
      · rw [if_neg longer]
        refine Wins.snoc isBest fun its known => ?_
        obtain rfl := Option.some.inj (matched.symm.trans known)
        exact Nat.le_of_not_lt longer

/-- **A run** over the rules that are left. -/
theorem Best.run (isBest : Best rules input best) (rest : List Rule) :
    Best (rules ++ rest) input (bestFrom input rules.length best rest) := by
  induction rest generalizing rules best with
  | nil => rwa [List.append_nil, bestFrom]
  | cons rule rest ih =>
      have behind : rules.length + 1 = (rules ++ [rule]).length := by
        rw [List.length_append, List.length_singleton]
      rw [bestFrom, List.append_cons, behind]
      cases matched : rule.automaton.longest input with
      | none => exact ih (isBest.skip matched)
      | some length => exact ih (isBest.better matched)

/-- **The search ends** with the best match. -/
theorem best_winner (state : State) (input : Text) : Best state.rules input (state.winner input) := by
  have start : Best [] input none := fun rule member => absurd member List.not_mem_nil
  exact start.run state.rules

/-- A state has no winner exactly if none of its rules has a match. -/
theorem winner_eq_none_iff {state : State} :
    state.winner input = none ↔ ∀ rule ∈ state.rules, rule.automaton.longest input = none := by
  constructor
  · intro none
    have isBest := best_winner state input
    rwa [none] at isBest
  · intro unmatched
    have isBest : Best state.rules input none := unmatched
    exact (best_winner state input).unique isBest

/-- **The winner** of a state is the match that wins. -/
theorem winner_eq_some_iff {state : State} {found : Match} :
    state.winner input = some found ↔ Wins state.rules input found := by
  constructor
  · intro won
    have isBest := best_winner state input
    rwa [won] at isBest
  · intro wins
    have isBest : Best state.rules input (some found) := wins
    exact (best_winner state input).unique isBest

/-! ## (3) Careful searches -/

/-- A search that gives up where a run of a rule does. -/
def carefulBestFrom (input : Text) (position : Nat) (best : Option Match) :
    List Rule → Option (Option Match)
  | [] => some best
  | rule :: rest => do
      match ← rule.automaton.carefulLongest input with
      | some length =>
          carefulBestFrom input (position + 1) (some (better best ⟨position, rule, length⟩)) rest
      | none => carefulBestFrom input (position + 1) best rest

/-- **A careful search** for the winner. -/
def carefulWinner (state : State) (input : Text) : Option (Option Match) :=
  carefulBestFrom input 0 none state.rules

/-- A careful search that does not give up is the search. -/
theorem bestFrom_eq_of_careful {position : Nat} {result : Option Match}
    (careful : carefulBestFrom input position best rules = some result) :
    bestFrom input position best rules = result := by
  induction rules generalizing position best with
  | nil => exact Option.some.inj careful
  | cons rule rules ih =>
      obtain ⟨found, run, careful⟩ := Option.bind_eq_some_iff.1 careful
      rw [bestFrom, Automaton.longest_eq_of_careful run]
      cases found with
      | none => exact ih careful
      | some length => exact ih careful

/-- A careful search does not give up if no automaton has a defect. -/
theorem carefulBestFrom_eq_of_checked {position : Nat}
    (checked : ∀ rule ∈ rules, rule.automaton.defect? = none) :
    carefulBestFrom input position best rules = some (bestFrom input position best rules) := by
  induction rules generalizing position best with
  | nil => rfl
  | cons rule rules ih =>
      rw [List.forall_mem_cons] at checked
      have run := (Automaton.defect?_eq_none_iff.1 checked.1).1.carefulLongest_eq input
      rw [carefulBestFrom, bestFrom, run, Option.bind_eq_bind, Option.bind_some]
      cases rule.automaton.longest input with
      | none => exact ih checked.2
      | some length => exact ih checked.2

/-- **The match policy.**  On every input, a state has no winner exactly if none of its rules accepts a start of
the input, the empty one included.  A match is the winner exactly if it is the longest match of its rule, no rule
has a longer one, and every rule in front has none or a shorter one.  A careful search that does not give up ends
with the same winner.  If no automaton of the state has a defect, a careful search does not give up, and what the
rules accept is what labels a path from the start to the end. -/
theorem winner_policy (state : State) (input : Text) :
    (state.winner input = none ↔ ∀ rule ∈ state.rules, ∀ start : Text, start <+: input →
      rule.automaton.accepts start = false) ∧
    (∀ found, state.winner input = some found ↔ Wins state.rules input found) ∧
    (∀ result, state.carefulWinner input = some result → state.winner input = result) ∧
    ((∀ rule ∈ state.rules, rule.automaton.defect? = none) →
      state.carefulWinner input = some (state.winner input) ∧
      (state.winner input = none ↔ ∀ rule ∈ state.rules, ∀ start : Text, start <+: input →
        start ∉ rule.automaton.language)) := by
  have refused : state.winner input = none ↔ ∀ rule ∈ state.rules, ∀ start : Text,
      start <+: input → rule.automaton.accepts start = false := by
    rw [winner_eq_none_iff]
    simp only [Automaton.longest_eq_none_iff]
  refine ⟨refused, fun found => winner_eq_some_iff, fun result => bestFrom_eq_of_careful,
    fun checked => ⟨carefulBestFrom_eq_of_checked checked, ?_⟩⟩
  have meaning : ∀ rule ∈ state.rules, ∀ start : Text,
      rule.automaton.accepts start = false ↔ start ∉ rule.automaton.language := by
    intro rule isRule start
    have sets := (Automaton.defect?_eq_none_iff.1 (checked rule isRule)).2
    rw [← sets.accepts_iff, Bool.not_eq_true]
  rw [refused]
  refine forall₂_congr fun rule isRule => forall₂_congr fun start _ => ?_
  exact meaning rule isRule start

/-- Of equally long matches, the first one wins; an empty match is one. -/
example : winner ⟨['S'], [⟨.ofText ['b'], [], ['b']⟩, ⟨.ofText [], [], ['$']⟩,
    ⟨(Automaton.ofText ['a']).optional, [], ['a']⟩]⟩ ['c'] =
    some ⟨1, ⟨.ofText [], [], ['$']⟩, 0⟩ := by
  cbv

end Lexer.State
