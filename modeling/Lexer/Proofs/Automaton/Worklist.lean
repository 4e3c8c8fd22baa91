import Lexer.Proofs.Automaton.Simulation
import Mathlib.Data.Finset.Card

/-! # Work lists

A closure is found with **a work list**: the positions that were seen, and those among them that still wait.
In one turn some waiting position is looked at; what it jumps to is seen then, and waits if it is new.  Which
of the waiting positions is taken makes no difference.  A turn takes one position off the list and puts on
only new ones, so **the turns that were made are the seen positions that wait no more**; there are never more
of them than nodes, whatever cycles the jumps have.  When nothing waits, what was seen is exactly what jumps
reach.  Hence a closure grows with the positions that it starts from, is its own closure, and does not depend
on the order of the jumps. -/

namespace Lexer.Automaton

/-! ## (1) Turns -/

/-- **A work list.** -/
structure Worklist where
  /-- The positions that were seen. -/
  seen : Finset Nat
  /-- The positions that wait until their jumps are looked at. -/
  waiting : Multiset Nat

namespace Worklist

/-- The work list of some positions: all of them were seen, and all of them wait. -/
def start (positions : Finset Nat) : Worklist :=
  ⟨positions, positions.val⟩

/-- **Look at a position**: what it jumps to is seen, and waits if it was not seen before. -/
def look (automaton : Automaton) (work : Worklist) (position : Nat) : Worklist :=
  let targets := (automaton.jumpsFrom position).toFinset
  ⟨work.seen ∪ targets, work.waiting.erase position + (targets \ work.seen).val⟩

end Worklist

/-- **Turns** of a work list: some number of times, any waiting position is looked at. -/
inductive Turns (automaton : Automaton) : (count : Nat) → (work last : Worklist) → Prop where
  /-- No turn. -/
  | none {work : Worklist} : Turns automaton 0 work work
  /-- A turn, and some more behind it. -/
  | turn {count : Nat} {work last : Worklist} {position : Nat} (waits : position ∈ work.waiting)
      (rest : Turns automaton count (work.look automaton position) last) :
      Turns automaton (count + 1) work last

namespace Worklist

variable {automaton : Automaton} {positions : Finset Nat} {work last : Worklist} {position count : Nat}

/-- A position is seen after a turn if it was seen before, or if the turn found it. -/
@[simp] theorem mem_seen_look {next : Nat} :
    next ∈ (work.look automaton position).seen ↔
      next ∈ work.seen ∨ next ∈ automaton.jumpsFrom position := by
  simp [look]

/-- A position waits after a turn if it is left over, or if the turn found it and it is new. -/
@[simp] theorem mem_waiting_look {next : Nat} :
    next ∈ (work.look automaton position).waiting ↔
      next ∈ work.waiting.erase position ∨ next ∈ automaton.jumpsFrom position ∧ next ∉ work.seen := by
  rw [look, Multiset.mem_add, Finset.mem_val, Finset.mem_sdiff, List.mem_toFinset]

/-- A turn takes off one position, and every other position that it puts on is newly seen. -/
theorem card_look (waits : position ∈ work.waiting) :
    (work.look automaton position).seen.card + work.waiting.card =
      work.seen.card + (work.look automaton position).waiting.card + 1 := by
  have seen : (work.look automaton position).seen.card =
      work.seen.card + ((automaton.jumpsFrom position).toFinset \ work.seen).card := by
    rw [look, ← Finset.union_sdiff_self_eq_union, Finset.card_union_of_disjoint Finset.disjoint_sdiff]
  have waiting : (work.look automaton position).waiting.card =
      (work.waiting.erase position).card +
        ((automaton.jumpsFrom position).toFinset \ work.seen).card := Multiset.card_add _ _
  have taken := Multiset.card_erase_add_one waits
  omega

/-- **Every turn** is for a position of its own: their number is that of the seen positions that wait no
more. -/
theorem card_turns (turns : automaton.Turns count work last) :
    last.seen.card + work.waiting.card = count + work.seen.card + last.waiting.card := by
  induction turns with
  | none => omega
  | turn waits rest ih =>
      have one := @card_look automaton _ _ waits
      omega

/-- From the start, the turns are the seen positions that wait no more. -/
theorem card_seen (turns : automaton.Turns count (start positions) last) :
    count + last.waiting.card = last.seen.card := by
  have all := card_turns turns
  have same : (start positions).waiting.card = (start positions).seen.card := Finset.card_val _
  omega

/-! ## (2) What is known of a work list -/

/-- **What is known** of a work list that started with some positions. -/
structure Known (automaton : Automaton) (positions : Finset Nat) (work : Worklist) : Prop where
  /-- The positions at the start were seen. -/
  origin : positions ⊆ work.seen
  /-- What was seen is reached from one of them. -/
  reached : ∀ goal ∈ work.seen, ∃ position ∈ positions, automaton.Reaches position goal
  /-- What waits was seen. -/
  waiting : ∀ position ∈ work.waiting, position ∈ work.seen
  /-- What was seen and does not wait has been looked at. -/
  looked : ∀ position ∈ work.seen, position ∉ work.waiting →
    ∀ next ∈ automaton.jumpsFrom position, next ∈ work.seen

/-- At the start everything waits. -/
theorem Known.start : Known automaton positions (start positions) where
  origin _ member := member
  reached goal member := ⟨goal, member, .refl⟩
  waiting _ waits := waits
  looked _ member waits := absurd member waits

/-- **A turn** keeps what is known. -/
theorem Known.look (known : Known automaton positions work) (waits : position ∈ work.waiting) :
    Known automaton positions (work.look automaton position) where
  origin _ member := mem_seen_look.2 (.inl (known.origin member))
  reached goal member := by
    rcases mem_seen_look.1 member with member | jump
    · exact known.reached goal member
    · obtain ⟨origin, isOrigin, reaches⟩ := known.reached position (known.waiting position waits)
      exact ⟨origin, isOrigin, reaches.tail jump⟩
  waiting next waitsStill := by
    rw [mem_seen_look]
    rcases mem_waiting_look.1 waitsStill with left | ⟨jump, -⟩
    · exact .inl (known.waiting next (Multiset.mem_of_mem_erase left))
    · exact .inr jump
  looked other member waitsNoMore next jump := by
    rw [mem_seen_look] at member ⊢
    rw [mem_waiting_look, not_or, not_and, not_not] at waitsNoMore
    -- what the turn found was seen before, or it would wait now
    have seen : other ∈ work.seen := member.elim id waitsNoMore.2
    by_cases same : other = position
    · exact .inr (same ▸ jump)
    · rw [Multiset.mem_erase_of_ne same] at waitsNoMore
      exact .inl (known.looked other seen waitsNoMore.1 next jump)

/-- **Any number of turns** keeps what is known. -/
theorem Known.turns (known : Known automaton positions work)
    (turns : automaton.Turns count work last) : Known automaton positions last := by
  induction turns with
  | none => exact known
  | turn waits rest ih => exact ih (known.look waits)

/-- **When nothing waits**, what was seen is what jumps reach. -/
theorem Known.mem_seen_iff (known : Known automaton positions work) (finished : work.waiting = 0)
    {goal : Nat} : goal ∈ work.seen ↔ ∃ position ∈ positions, automaton.Reaches position goal := by
  refine ⟨known.reached goal, ?_⟩
  rintro ⟨position, member, reaches⟩
  have nothing : ∀ other, other ∉ work.waiting := by simp [finished]
  induction reaches with
  | refl => exact known.origin member
  | tail _ jump ih => exact known.looked _ ih (nothing _) _ jump

end Worklist

/-! ## (3) The turns of a closure -/

variable {automaton : Automaton}

/-- What is left of a list without its repetitions is all different. -/
theorem nodup_eraseDups : (items : List Nat) → items.eraseDups.Nodup
  | [] => by simp
  | item :: rest => by
      rw [List.eraseDups_cons, List.nodup_cons]
      exact ⟨by simp [List.mem_eraseDups], nodup_eraseDups _⟩
  termination_by items => items.length
  decreasing_by exact Nat.lt_succ_of_le (List.length_filter_le ..)

/-- Fresh jumps are all different. -/
theorem nodup_freshJumps (seen : List Nat) (position : Nat) :
    (automaton.freshJumps seen position).Nodup :=
  nodup_eraseDups _

/-- A closure of different positions has different positions. -/
theorem nodup_closureFrom {seen pending : List Nat} (distinct : seen.Nodup) :
    (automaton.closureFrom seen pending).Nodup := by
  fun_induction closureFrom automaton seen pending with
  | case1 seen => exact distinct
  | case2 seen position pending fresh ih =>
      refine ih (List.nodup_append'.2 ⟨nodup_freshJumps seen position, distinct, ?_⟩)
      exact fun next new => (mem_freshJumps.1 new).2

/-- Looking at the first pending position is a turn. -/
theorem look_cons (seen pending : List Nat) (position : Nat) :
    (⟨seen.toFinset, (position :: pending : List Nat)⟩ : Worklist).look automaton position =
      ⟨(automaton.freshJumps seen position ++ seen).toFinset,
        (automaton.freshJumps seen position ++ pending : List Nat)⟩ := by
  have new : (automaton.jumpsFrom position).toFinset \ seen.toFinset =
      (automaton.freshJumps seen position).toFinset := by
    ext next
    simp [mem_freshJumps]
  rw [Worklist.look, new, List.toFinset_append, List.toFinset_val,
    (nodup_freshJumps seen position).dedup, Multiset.coe_erase, List.erase_cons_head,
    Multiset.coe_add, Worklist.mk.injEq, Multiset.coe_eq_coe, ← new]
  exact ⟨by rw [Finset.sdiff_union_self_eq_union, Finset.union_comm], List.perm_append_comm⟩

/-- **A closure** makes turns until nothing waits. -/
theorem exists_turns_closureFrom (seen pending : List Nat) :
    ∃ count, automaton.Turns count ⟨seen.toFinset, pending⟩
      ⟨(automaton.closureFrom seen pending).toFinset, 0⟩ := by
  fun_induction closureFrom automaton seen pending with
  | case1 seen => exact ⟨0, .none⟩
  | case2 seen position pending fresh ih =>
      obtain ⟨count, turns⟩ := ih
      rw [← look_cons] at turns
      exact ⟨count + 1, .turn (List.mem_cons_self ..) turns⟩

/-- A work list that started with some positions never holds more than their closure. -/
theorem Worklist.Known.seen_subset {positions : List Nat} {work : Worklist}
    (known : Worklist.Known automaton positions.toFinset work) :
    work.seen ⊆ (automaton.closure positions).toFinset := by
  intro goal member
  obtain ⟨position, isOrigin, reaches⟩ := known.reached goal member
  exact List.mem_toFinset.2 (mem_closure_iff.2 ⟨position, List.mem_toFinset.1 isOrigin, reaches⟩)

/-- A finished work list holds the closure. -/
theorem Worklist.Known.seen_eq {positions : List Nat} {work : Worklist}
    (known : Worklist.Known automaton positions.toFinset work) (finished : work.waiting = 0) :
    work.seen = (automaton.closure positions).toFinset := by
  ext goal
  simp only [known.mem_seen_iff finished, List.mem_toFinset, mem_closure_iff]

/-! ## (4) Closures as sets -/

/-- **A closure grows** with the positions that it starts from. -/
theorem closure_subset_closure {positions larger : List Nat} (subset : positions ⊆ larger) :
    automaton.closure positions ⊆ automaton.closure larger := by
  intro goal member
  obtain ⟨position, isOrigin, reaches⟩ := mem_closure_iff.1 member
  exact mem_closure_iff.2 ⟨position, subset isOrigin, reaches⟩

/-- Nothing is added to closed positions. -/
theorem JumpClosed.closureFrom_eq {seen pending : List Nat} (closed : automaton.JumpClosed seen)
    (known : pending ⊆ seen) : automaton.closureFrom seen pending = seen := by
  induction pending with
  | nil => rw [closureFrom]
  | cons position pending ih =>
      rw [List.cons_subset] at known
      have nothing : automaton.freshJumps seen position = [] := by
        refine List.eq_nil_iff_forall_not_mem.2 fun next new => ?_
        obtain ⟨jump, unseen⟩ := mem_freshJumps.1 new
        exact unseen (closed position known.1 next jump)
      rw [closureFrom, nothing]
      exact ih known.2

/-- **A closure is its own closure.** -/
theorem closure_closure (positions : List Nat) :
    automaton.closure (automaton.closure positions) = automaton.closure positions :=
  (jumpClosed_closure automaton positions).closureFrom_eq (List.Subset.refl _)

/-- **A closure depends on which jumps there are** and on nothing else of the automaton. -/
theorem mem_closure_congr {other : Automaton} {positions : List Nat}
    (same : ∀ position next, next ∈ other.jumpsFrom position ↔ next ∈ automaton.jumpsFrom position)
    (goal : Nat) : goal ∈ other.closure positions ↔ goal ∈ automaton.closure positions := by
  have jumps : (fun position next => next ∈ other.jumpsFrom position) =
      fun position next => next ∈ automaton.jumpsFrom position := by
    funext position next
    exact propext (same position next)
  rw [mem_closure_iff, mem_closure_iff, Reaches, Reaches, jumps]

/-! ## (5) Closures of automata in range -/

/-- **What closing some positions comes to.** -/
structure Closes (automaton : Automaton) (positions reached : List Nat) : Prop where
  /-- Only positions with nodes are looked at. -/
  careful : automaton.carefulClosure positions = some reached
  /-- Turns are made until nothing waits, one for every position that is reached. -/
  turns : automaton.Turns reached.length (.start positions.toFinset) ⟨reached.toFinset, 0⟩
  /-- No position is there twice. -/
  distinct : reached.Nodup
  /-- The positions are those that any number of jumps reach. -/
  mem_iff : ∀ goal, goal ∈ reached ↔ ∃ position ∈ positions, automaton.Reaches position goal
  /-- Whichever waiting positions are taken, there are no more turns than nodes. -/
  count_le : ∀ count last, automaton.Turns count (.start positions.toFinset) last →
    count ≤ automaton.nodes.length
  /-- Whichever waiting positions are taken, only positions with nodes wait. -/
  inside : ∀ count last, automaton.Turns count (.start positions.toFinset) last →
    ∀ position ∈ last.waiting, position < automaton.nodes.length
  /-- Whichever waiting positions are taken, the same positions were seen when nothing waits. -/
  finished : ∀ count last, automaton.Turns count (.start positions.toFinset) last →
    last.waiting = 0 → last.seen = reached.toFinset

/-- **Closing positions of an automaton in range.** -/
theorem InRange.closes (inRange : automaton.InRange) {positions : List Nat}
    (distinct : positions.Nodup)
    (inside : ∀ position ∈ positions, position < automaton.nodes.length) :
    automaton.Closes positions (automaton.closure positions) where
  careful := inRange.carefulClosureFrom_eq inside
  turns := by
    obtain ⟨count, turns⟩ := @exists_turns_closureFrom automaton positions positions
    have start : (⟨positions.toFinset, positions⟩ : Worklist) = .start positions.toFinset := by
      rw [Worklist.start, List.toFinset_val, distinct.dedup]
    rw [start] at turns
    -- nothing waits in the end, so there was a turn for each position that was seen
    have number : count = (automaton.closure positions).toFinset.card := Worklist.card_seen turns
    have length : (automaton.closure positions).toFinset.card =
        (automaton.closure positions).length :=
      List.toFinset_card_of_nodup (nodup_closureFrom distinct)
    obtain rfl : count = (automaton.closure positions).length := number.trans length
    exact turns
  distinct := nodup_closureFrom distinct
  mem_iff goal := mem_closure_iff
  count_le count last turns := by
    have number := Worklist.card_seen turns
    have seen : last.seen ⊆ Finset.range automaton.nodes.length := fun position member =>
      Finset.mem_range.2 (inRange.lt_length_of_mem_closure inside position
        (List.mem_toFinset.1 ((Worklist.Known.start.turns turns).seen_subset member)))
    have few := Finset.card_le_card seen
    rw [Finset.card_range] at few
    omega
  inside count last turns position waits := by
    have known := Worklist.Known.start.turns turns
    exact inRange.lt_length_of_mem_closure inside position
      (List.mem_toFinset.1 (known.seen_subset (known.waiting position waits)))
  finished count last turns := (Worklist.Known.start.turns turns).seen_eq

/-- **Closures.**  Let an automaton be in range.  The closure of any different positions with nodes is found
without looking at a position that has no node, in one turn for each position that is reached, and it holds
exactly what any number of jumps reach; so it would in any other order of turns, of which there are never
more than nodes.  More positions have a larger closure, a closure is its own closure, and jumps in another
order have the same closures. -/
theorem closes_closure (inRange : automaton.InRange) {positions : List Nat}
    (distinct : positions.Nodup)
    (inside : ∀ position ∈ positions, position < automaton.nodes.length) :
    automaton.Closes positions (automaton.closure positions) ∧
      (∀ larger : List Nat, positions ⊆ larger →
        automaton.closure positions ⊆ automaton.closure larger) ∧
      automaton.closure (automaton.closure positions) = automaton.closure positions ∧
      ∀ other : Automaton,
        (∀ position, (other.jumpsFrom position).Perm (automaton.jumpsFrom position)) →
          (other.closure positions).Perm (automaton.closure positions) := by
  refine ⟨inRange.closes distinct inside, fun larger => closure_subset_closure,
    closure_closure positions, fun other reordered => ?_⟩
  have same : ∀ goal, goal ∈ other.closure positions ↔ goal ∈ automaton.closure positions :=
    mem_closure_congr fun position _ => (reordered position).mem_iff
  exact (List.perm_ext_iff_of_nodup (nodup_closureFrom distinct) (nodup_closureFrom distinct)).2 same

/-- Jumps from nodes to themselves, a jump that is there twice, a cycle through three nodes and a node that only
an edge leads to, and the same jumps in another order. -/
theorem closes_closure_cyclic :
    let automaton : Automaton :=
      ⟨[⟨0, [1, 0, 1], []⟩, ⟨1, [2, 1], []⟩, ⟨2, [0], [⟨.single 'a', 3⟩]⟩, ⟨3, [1], []⟩], 0, 3⟩
    let other : Automaton :=
      ⟨[⟨0, [0, 1, 1], []⟩, ⟨1, [1, 2], []⟩, ⟨2, [0], []⟩, ⟨3, [1], []⟩], 0, 3⟩
    automaton.InRange ∧ [1].Nodup ∧ (∀ position ∈ [1], position < automaton.nodes.length) ∧
      automaton.closure [1] = [0, 2, 1] ∧ automaton.Closes [1] (automaton.closure [1]) ∧
      automaton.closure [1] ⊆ automaton.closure [3, 1] ∧
      automaton.closure (automaton.closure [1]) = automaton.closure [1] ∧
      (other.closure [1]).Perm (automaton.closure [1]) := by
  intro automaton other
  have inRange : automaton.InRange := (defect?_eq_none_iff.1 (by decide)).1
  have inside : ∀ position ∈ [1], position < automaton.nodes.length := by decide
  have reordered : ∀ position, (other.jumpsFrom position).Perm (automaton.jumpsFrom position) := by
    intro position
    match position with
    | 0 => exact .swap 1 0 [1]
    | 1 => exact .swap 2 1 []
    | 2 | 3 | _ + 4 => exact .refl _
  have ⟨closes, grows, closed, anyOrder⟩ :=
    closes_closure inRange (List.nodup_singleton 1) inside
  exact ⟨inRange, List.nodup_singleton 1, inside, by cbv, closes, grows [3, 1] (by decide), closed,
    anyOrder other reordered⟩

end Lexer.Automaton
