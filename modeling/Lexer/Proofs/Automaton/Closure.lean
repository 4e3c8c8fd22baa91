import Lexer.Automaton.Run
import Lexer.Proofs.Automaton.Path
import Mathlib.Logic.Relation

/-! # Closures under jumps

The work list of a closure holds positions whose jumps were not looked at yet.  What was seen is
reachable, and the jumps of everything that left the work list were seen; when the work list is empty,
the seen positions are **exactly the reachable ones**.  Hence a closure depends on nothing but which
positions it starts from and which jumps there are. -/

namespace Lexer.Automaton

/-- A position is **reached** from another one by any number of jumps. -/
def Reaches (automaton : Automaton) : Nat → Nat → Prop :=
  Relation.ReflTransGen fun position next => next ∈ automaton.jumpsFrom position

/-- What jumps reach is the same as what a path of the empty text leads to. -/
theorem path_nil_iff {automaton : Automaton} {position goal : Nat} :
    automaton.Path goal position [] ↔ automaton.Reaches position goal := by
  constructor
  · intro path
    -- the word has to be a variable for the induction; an edge would make it longer
    generalize empty : ([] : Text) = word at path
    induction path with
    | stop => exact .refl
    | jump jump _ ih => exact .head jump (ih empty)
    | edge => simp at empty
  · intro reaches
    induction reaches using Relation.ReflTransGen.head_induction_on with
    | refl => exact .stop
    | head jump _ ih => exact .jump jump ih

/-- **Closed** positions keep what jumps reach from them. -/
def JumpClosed (automaton : Automaton) (positions : List Nat) : Prop :=
  ∀ position ∈ positions, ∀ next ∈ automaton.jumpsFrom position, next ∈ positions

/-- A closure holds what was seen. -/
theorem mem_closureFrom_of_mem {automaton : Automaton} {seen pending : List Nat} {position : Nat}
    (member : position ∈ seen) : position ∈ automaton.closureFrom seen pending := by
  fun_induction closureFrom automaton seen pending with
  | case1 seen => exact member
  | case2 seen first pending fresh ih => exact ih (List.mem_append_right _ member)

/-- A closure is closed, if the work list holds every seen position with a jump that was not seen. -/
theorem jumpClosed_closureFrom {automaton : Automaton} {seen pending : List Nat}
    (done : ∀ position ∈ seen, position ∉ pending →
      ∀ next ∈ automaton.jumpsFrom position, next ∈ seen) :
    automaton.JumpClosed (automaton.closureFrom seen pending) := by
  fun_induction closureFrom automaton seen pending with
  | case1 seen => exact fun position member => done position member List.not_mem_nil
  | case2 seen first pending fresh ih =>
      -- what waits now is what waited before without the first position, and its fresh
      -- jumps
      refine ih fun position member waits next jump => ?_
      simp only [List.mem_append, not_or] at member waits ⊢
      have known := member.resolve_left waits.1
      by_cases new : next ∈ seen
      · exact .inr new
      -- only the jumps of the first position were not looked at before
      · by_cases same : position = first
        · subst same
          exact .inl (mem_freshJumps.2 ⟨jump, new⟩)
        · exact .inr (done position known (by simp [same, waits.2]) next jump)

/-- A closure holds only what is reached from what was seen. -/
theorem exists_reaches_of_mem_closureFrom {automaton : Automaton} {seen pending : List Nat}
    (known : ∀ position ∈ pending, position ∈ seen) {goal : Nat}
    (member : goal ∈ automaton.closureFrom seen pending) :
    ∃ position ∈ seen, automaton.Reaches position goal := by
  fun_induction closureFrom automaton seen pending with
  | case1 seen => exact ⟨goal, member, .refl⟩
  | case2 seen first pending fresh ih =>
      -- fresh positions are seen as soon as they wait, which is what reaching them needs
      have still : ∀ position ∈ fresh ++ pending, position ∈ fresh ++ seen := by
        intro position waits
        rcases List.mem_append.1 waits with new | waits
        · exact List.mem_append_left _ new
        · exact List.mem_append_right _ (known position (List.mem_cons_of_mem _ waits))
      obtain ⟨position, from_, reaches⟩ := ih still member
      rcases List.mem_append.1 from_ with new | old
      · exact ⟨first, known first (by simp), .head (mem_freshJumps.1 new).1 reaches⟩
      · exact ⟨position, old, reaches⟩

/-- A closure is closed under jumps. -/
theorem jumpClosed_closure (automaton : Automaton) (positions : List Nat) :
    automaton.JumpClosed (automaton.closure positions) :=
  jumpClosed_closureFrom fun _ member waits => absurd member waits

/-- What jumps reach from closed positions is one of them. -/
theorem JumpClosed.mem_of_reaches {automaton : Automaton} {positions : List Nat}
    (closed : automaton.JumpClosed positions) {position goal : Nat} (member : position ∈ positions)
    (reaches : automaton.Reaches position goal) : goal ∈ positions := by
  induction reaches with
  | refl => exact member
  | tail _ jump ih => exact closed _ ih _ jump

/-- **A closure** holds exactly the positions that jumps reach. -/
theorem mem_closure_iff {automaton : Automaton} {positions : List Nat} {goal : Nat} :
    goal ∈ automaton.closure positions ↔
      ∃ position ∈ positions, automaton.Reaches position goal := by
  constructor
  · exact exists_reaches_of_mem_closureFrom fun _ member => member
  · rintro ⟨position, member, reaches⟩
    exact (jumpClosed_closure automaton positions).mem_of_reaches
      (mem_closureFrom_of_mem member) reaches

end Lexer.Automaton
