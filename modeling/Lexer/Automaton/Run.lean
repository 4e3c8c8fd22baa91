import Lexer.Automaton.Basic
import Lexer.Text.Basic

/-! # Running automata

All nodes that some input may lead to are followed in parallel.  **Closure** adds what jumps reach;
its work list ends because a node enters it only when it was not seen before.  **The longest match**
is the longest start of the input after which the end is among the nodes; its length is counted in
bytes. -/

namespace Lexer.Automaton

/-- All positions that some jump leads to. -/
def jumpTargets (automaton : Automaton) : List Nat :=
  automaton.nodes.flatMap Node.jumps

/-- The positions that some jump leads to and that were not seen yet. -/
def unseen (automaton : Automaton) (seen : List Nat) : List Nat :=
  automaton.jumpTargets.filter fun position => !seen.contains position

/-- The jumps from a position to positions not seen yet, each once. -/
def freshJumps (automaton : Automaton) (seen : List Nat) (position : Nat) : List Nat :=
  ((automaton.jumpsFrom position).filter fun target => !seen.contains target).eraseDups

/-- A jump from a position is among all jumps. -/
theorem mem_jumpTargets_of_mem_jumpsFrom {automaton : Automaton} {position target : Nat}
    (jump : target ∈ automaton.jumpsFrom position) : target ∈ automaton.jumpTargets := by
  unfold jumpsFrom at jump
  split at jump
  · next node found =>
      exact List.mem_flatMap.2 ⟨node, List.mem_of_getElem? found, jump⟩
  · simp at jump

/-- Fresh jumps lead to positions that were not seen. -/
theorem mem_freshJumps {automaton : Automaton} {seen : List Nat} {position target : Nat} :
    target ∈ automaton.freshJumps seen position ↔
      target ∈ automaton.jumpsFrom position ∧ target ∉ seen := by
  simp [freshJumps, List.mem_eraseDups]

/-- A stronger condition keeps a sublist of what a weaker one keeps. -/
theorem filter_sublist_filter {strong weak : Nat → Bool}
    (implies : ∀ item, strong item = true → weak item = true) (items : List Nat) :
    (items.filter strong).Sublist (items.filter weak) := by
  induction items with
  | nil => simp
  | cons item items ih =>
      by_cases strongItem : strong item = true
      · simp [strongItem, implies item strongItem, ih]
      · by_cases weakItem : weak item = true
        · simpa [strongItem, weakItem] using ih.cons item
        · simpa [strongItem, weakItem] using ih

/-- A stronger condition that some element fails keeps fewer elements. -/
theorem length_filter_lt_length_filter {items : List Nat} {strong weak : Nat → Bool}
    (implies : ∀ item, strong item = true → weak item = true) {lost : Nat} (member : lost ∈ items)
    (passes : weak lost = true) (fails : strong lost = false) :
    (items.filter strong).length < (items.filter weak).length := by
  have sublist := filter_sublist_filter implies items
  rcases Nat.lt_or_ge (items.filter strong).length (items.filter weak).length with less | notLess
  · exact less
  · have same := sublist.eq_of_length_le notLess
    have kept : lost ∈ items.filter weak := List.mem_filter.2 ⟨member, passes⟩
    rw [← same] at kept
    simp [fails] at kept

/-- Fresh jumps leave fewer positions unseen. -/
theorem length_unseen_lt {automaton : Automaton} {seen : List Nat} {position : Nat}
    (some : automaton.freshJumps seen position ≠ []) :
    (automaton.unseen (automaton.freshJumps seen position ++ seen)).length <
      (automaton.unseen seen).length := by
  obtain ⟨target, member⟩ := List.exists_mem_of_ne_nil _ some
  have ⟨jump, unseen⟩ := mem_freshJumps.1 member
  refine length_filter_lt_length_filter ?_ (mem_jumpTargets_of_mem_jumpsFrom jump) ?_ ?_
  · intro item
    simp
  · simpa using unseen
  · simp [member]

/-- The positions that jumps reach from a work list, together with those already seen. -/
def closureFrom (automaton : Automaton) (seen : List Nat) : (pending : List Nat) → List Nat
  | [] => seen
  | position :: pending =>
      let fresh := automaton.freshJumps seen position
      closureFrom automaton (fresh ++ seen) (fresh ++ pending)
  termination_by pending => ((automaton.unseen seen).length, pending.length)
  decreasing_by
    by_cases none : automaton.freshJumps seen position = []
    · simp only [none, List.nil_append]
      exact Prod.Lex.right _ (by simp)
    · exact Prod.Lex.left _ _ (length_unseen_lt none)

/-- **The closure** of some positions under jumps. -/
def closure (automaton : Automaton) (positions : List Nat) : List Nat :=
  closureFrom automaton positions positions

/-- The positions that edges reach by consuming one character. -/
def advance (automaton : Automaton) (positions : List Nat) (c : Char) : List Nat :=
  (positions.flatMap fun position =>
    ((automaton.edgesFrom position).filter fun edge => edge.chars.contains c).map
      Edge.target).eraseDups

/-- The longest match that continues one of a given length, which leads to some positions. -/
def longestFrom (automaton : Automaton) (positions : List Nat) (length : Nat)
    (best : Option Nat) : (input : Text) → Option Nat
  | [] => best
  | c :: rest =>
      match automaton.advance positions c with
      | [] => best
      | reached =>
          let positions := automaton.closure reached
          let length := length + c.utf8Size
          longestFrom automaton positions length
            (if automaton.finish ∈ positions then some length else best) rest

/-- **The longest match**: the number of bytes of the longest start of the input that the automaton
accepts, if it accepts any. -/
def longest (automaton : Automaton) (input : Text) : Option Nat :=
  let positions := automaton.closure [automaton.start]
  longestFrom automaton positions 0 (if automaton.finish ∈ positions then some 0 else none) input

/-- The automaton accepts all of the input. -/
def accepts (automaton : Automaton) (input : Text) : Bool :=
  automaton.longest input = some input.byteLength

end Lexer.Automaton
