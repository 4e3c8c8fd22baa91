import Lexer.Proofs.Automaton.Path
import Lexer.Proofs.CharSet.Membership
import Mathlib.Tactic.Common

/-! # The regular operations on automata

Thompson's construction, operation by operation.  An automaton is **in range** if its start, its end
and all its jumps and edges lead to nodes, and **without exit** if nothing leads on from its end.  Every
operation keeps both, and gives the automaton of the product, the sum, the sum with the empty text, or
the star of the languages.  The words on a path through a joined automaton are found by following it
until it changes over from one part to the other. -/

namespace Lexer.Automaton

/-- **In range**: the start, the end and everything that is referred to are nodes. -/
structure InRange (automaton : Automaton) : Prop where
  /-- The start is a node. -/
  start : automaton.start < automaton.nodes.length
  /-- The end is a node. -/
  finish : automaton.finish < automaton.nodes.length
  /-- Jumps lead to nodes. -/
  jumps : ∀ {position next}, next ∈ automaton.jumpsFrom position → next < automaton.nodes.length
  /-- Edges lead to nodes. -/
  edges : ∀ {position edge}, edge ∈ automaton.edgesFrom position →
    edge.target < automaton.nodes.length

/-- **Without exit**: nothing leads on from the end. -/
structure NoExit (automaton : Automaton) : Prop where
  /-- No jump starts at the end. -/
  jumps : ∀ next, next ∉ automaton.jumpsFrom automaton.finish
  /-- No edge starts at the end. -/
  edges : ∀ edge, edge ∉ automaton.edgesFrom automaton.finish

/-- A path from the end of an automaton without exit stays there. -/
theorem NoExit.eq_nil {automaton : Automaton} (noExit : automaton.NoExit) {word : Text}
    (path : automaton.Path automaton.finish automaton.finish word) : word = [] :=
  (path.of_noExit noExit.jumps noExit.edges).1

/-! ## (1) The empty text and single characters -/

/-- An empty automaton has one node, which is its start and its end, and from which nothing leads on. -/
theorem isEmpty_iff {automaton : Automaton} :
    automaton.isEmpty = true ↔
      ∃ number, automaton = ⟨[Node.fresh number], 0, 0⟩ := by
  obtain ⟨nodes, start, finish⟩ := automaton
  constructor
  · intro empty
    unfold isEmpty at empty
    split at empty
    · next node single =>
        obtain ⟨number, jumps, edges⟩ := node
        simp only [Bool.and_eq_true, decide_eq_true_eq, List.isEmpty_iff] at empty single
        obtain ⟨⟨⟨startZero, finishZero⟩, noJumps⟩, noEdges⟩ := empty
        exact ⟨number, by rw [single, startZero, finishZero, noJumps, noEdges]; rfl⟩
    · simp at empty
  · rintro ⟨number, same⟩
    rw [same]
    rfl

/-- Nothing leads on in an automaton of one fresh node. -/
theorem jumpsFrom_fresh (number start finish position : Nat) :
    jumpsFrom ⟨[Node.fresh number], start, finish⟩ position = [] := by
  cases position <;> rfl

/-- Nothing leads on in an automaton of one fresh node. -/
theorem edgesFrom_fresh (number start finish position : Nat) :
    edgesFrom ⟨[Node.fresh number], start, finish⟩ position = [] := by
  cases position <;> rfl

/-- An automaton of one fresh node is in range. -/
theorem inRange_fresh (number : Nat) : InRange ⟨[Node.fresh number], 0, 0⟩ where
  start := by simp
  finish := by simp
  jumps jump := by simp [jumpsFrom_fresh] at jump
  edges leaves := by simp [edgesFrom_fresh] at leaves

/-- An automaton of one fresh node is without exit. -/
theorem noExit_fresh (number : Nat) : NoExit ⟨[Node.fresh number], 0, 0⟩ where
  jumps next := by simp [jumpsFrom_fresh]
  edges edge := by simp [edgesFrom_fresh]

/-- **The automaton of one fresh node** accepts the empty text only. -/
theorem language_fresh (number : Nat) : language ⟨[Node.fresh number], 0, 0⟩ = 1 := by
  ext word
  rw [mem_language, Language.mem_one]
  constructor
  · exact (noExit_fresh number).eq_nil
  · rintro rfl
    exact .stop

/-- The automaton of a set has no jumps. -/
theorem jumpsFrom_single (chars : CharSet) (position : Nat) :
    (single chars).jumpsFrom position = [] := by
  rcases position with _ | _ | position <;> rfl

/-- The automaton of a set has one edge. -/
theorem mem_edgesFrom_single {chars : CharSet} {position : Nat} {edge : Edge} :
    edge ∈ (single chars).edgesFrom position ↔ position = 0 ∧ edge = ⟨chars, 1⟩ := by
  rcases position with _ | _ | position
  · simp [single, edgesFrom]
  · simp [single, edgesFrom, Node.fresh]
  · simp [single, edgesFrom]

/-- The automaton of a set is in range. -/
theorem inRange_single (chars : CharSet) : (single chars).InRange where
  start := by simp [single]
  finish := by simp [single]
  jumps jump := by simp [jumpsFrom_single] at jump
  edges leaves := by
    obtain ⟨-, rfl⟩ := mem_edgesFrom_single.1 leaves
    simp [single]

/-- The automaton of a set is without exit. -/
theorem noExit_single (chars : CharSet) : (single chars).NoExit where
  jumps next := by simp [jumpsFrom_single]
  edges edge leaves := absurd (mem_edgesFrom_single.1 leaves).1 (by simp [single])

/-- **The automaton of a set** accepts its members. -/
theorem language_single (chars : CharSet) :
    (single chars).language = chars.language := by
  ext word
  rw [mem_language, CharSet.mem_language]
  constructor
  · intro path
    -- the start is not the end, so a path begins with the only edge
    generalize start : (single chars).start = position at path
    cases path with
    | stop => exact absurd start (by simp [single])
    | jump jump _ => simp [jumpsFrom_single] at jump
    | edge leaves member rest =>
        obtain ⟨-, rfl⟩ := mem_edgesFrom_single.1 leaves
        exact ⟨_, member, by rw [(noExit_single chars).eq_nil rest]⟩
  · rintro ⟨c, member, rfl⟩
    exact .edge (mem_edgesFrom_single.2 ⟨rfl, rfl⟩) member .stop

/-! ## (2) Sequences -/

section Concat

variable {left right : Automaton}

/-- A sequence has the jumps of both parts, and one from the end of the first to the start of the
second. -/
theorem mem_jumpsFrom_concat (finish : left.finish < left.nodes.length)
    (notEmpty : left.isEmpty = false) {position next : Nat} :
    next ∈ (left.concat right).jumpsFrom position ↔
      (next ∈ left.jumpsFrom position ∨
        ∃ inner target, position = inner + left.nodes.length ∧
          next = target + left.nodes.length ∧ target ∈ right.jumpsFrom inner) ∨
        position = left.finish ∧ next = right.start + left.nodes.length := by
  rw [concat, notEmpty, if_neg Bool.false_ne_true, ← mem_jumpsFrom_beside]
  exact mem_jumpsFrom_addJump (by simp only [List.length_append]; omega)

/-- A sequence has the edges of both parts. -/
theorem mem_edgesFrom_concat (notEmpty : left.isEmpty = false) {position : Nat} {edge : Edge} :
    edge ∈ (left.concat right).edgesFrom position ↔
      edge ∈ left.edgesFrom position ∨
        ∃ inner moved, position = inner + left.nodes.length ∧
          edge = moved.shift left.nodes.length ∧ moved ∈ right.edgesFrom inner := by
  rw [concat, notEmpty, if_neg Bool.false_ne_true, edgesFrom_addJump]
  exact mem_edgesFrom_beside

/-- The end of a sequence is the moved end of its second part. -/
theorem finish_concat (notEmpty : left.isEmpty = false) :
    (left.concat right).finish = right.finish + left.nodes.length := by
  rw [concat, notEmpty]
  rfl

/-- The start of a sequence is the start of its first part. -/
theorem start_concat (notEmpty : left.isEmpty = false) :
    (left.concat right).start = left.start := by
  rw [concat, notEmpty]
  rfl

/-- A sequence has the nodes of both parts. -/
theorem length_concat (notEmpty : left.isEmpty = false) :
    (left.concat right).nodes.length = left.nodes.length + right.nodes.length := by
  rw [concat, notEmpty]
  simp [shift]

/-- A path to the end of a sequence stays in the second part, or leaves the first part through its
end. -/
theorem path_concat (inRange : left.InRange) (notEmpty : left.isEmpty = false) {position : Nat}
    {word : Text}
    (path : (left.concat right).Path (right.finish + left.nodes.length) position word) :
    (∀ inner, position = inner + left.nodes.length → right.Path right.finish inner word) ∧
      (position < left.nodes.length → ∃ first second, word = first ++ second ∧
        left.Path left.finish position first ∧ right.Path right.finish right.start second) := by
  -- the induction is on the path; where it stands decides which of the two parts it is in
  induction path with
  | stop =>
      refine ⟨fun inner same => ?_, fun inside => by omega⟩
      obtain rfl : right.finish = inner := by omega
      exact .stop
  | jump jump _ ih =>
      rcases (mem_jumpsFrom_concat inRange.finish notEmpty).1 jump with
        (jump | ⟨source, target, rfl, rfl, innerJump⟩) | ⟨rfl, rfl⟩
      · have inside := lt_length_of_mem_jumpsFrom jump
        refine ⟨fun inner same => by omega, fun _ => ?_⟩
        obtain ⟨first, second, rfl, before, behind⟩ := ih.2 (inRange.jumps jump)
        exact ⟨first, second, rfl, .jump jump before, behind⟩
      · refine ⟨fun inner same => ?_, fun inside => by omega⟩
        obtain rfl : source = inner := by omega
        exact .jump innerJump (ih.1 target rfl)
      -- the path changes over from the end of the first part to the start of the second one
      · exact ⟨fun inner same => absurd inRange.finish (by omega),
          fun _ => ⟨[], _, rfl, .stop, ih.1 right.start rfl⟩⟩
  | edge leaves member _ ih =>
      rcases (mem_edgesFrom_concat notEmpty).1 leaves with
        leaves | ⟨source, moved, rfl, rfl, innerEdge⟩
      · have inside := lt_length_of_mem_edgesFrom leaves
        refine ⟨fun inner same => by omega, fun _ => ?_⟩
        obtain ⟨first, second, rfl, before, behind⟩ := ih.2 (inRange.edges leaves)
        exact ⟨_ :: first, second, rfl, .edge leaves member before, behind⟩
      · refine ⟨fun inner same => ?_, fun inside => by omega⟩
        obtain rfl : source = inner := by omega
        exact .edge innerEdge member (ih.1 moved.target rfl)

/-- **A sequence** accepts the product of the languages. -/
theorem language_concat (inRange : left.InRange) :
    (left.concat right).language = left.language * right.language := by
  cases notEmpty : left.isEmpty with
  | true =>
      -- an empty first part is left out, and accepts only the empty text
      obtain ⟨number, rfl⟩ := isEmpty_iff.1 notEmpty
      rw [concat, notEmpty, if_pos rfl, language_fresh, one_mul]
  | false =>
      ext word
      rw [mem_language, finish_concat notEmpty, start_concat notEmpty, Language.mem_mul]
      constructor
      · intro path
        obtain ⟨first, second, rfl, before, behind⟩ :=
          (path_concat inRange notEmpty path).2 inRange.start
        exact ⟨first, before, second, behind, rfl⟩
      · rintro ⟨first, before, second, behind, rfl⟩
        -- the other way round, both paths are moved into the sequence and joined by its jump
        have into : (left.concat right).Path left.finish left.start first :=
          before.mono
            (fun jump => (mem_jumpsFrom_concat inRange.finish notEmpty).2 (.inl (.inl jump)))
            fun leaves => (mem_edgesFrom_concat notEmpty).2 (.inl leaves)
        have onward : (left.concat right).Path (right.finish + left.nodes.length)
            (right.start + left.nodes.length) second :=
          behind.embed (· + left.nodes.length)
            (fun jump => (mem_jumpsFrom_concat inRange.finish notEmpty).2
              (.inl (.inr ⟨_, _, rfl, rfl, jump⟩)))
            fun leaves => ⟨_, (mem_edgesFrom_concat notEmpty).2 (.inr ⟨_, _, rfl, rfl, leaves⟩),
              rfl, rfl⟩
        exact into.trans
          (.jump ((mem_jumpsFrom_concat inRange.finish notEmpty).2 (.inr ⟨rfl, rfl⟩)) onward)

/-- A sequence of automata in range is in range. -/
theorem InRange.concat (first : left.InRange) (second : right.InRange) :
    (left.concat right).InRange := by
  cases notEmpty : left.isEmpty with
  | true => rwa [Automaton.concat, notEmpty, if_pos rfl]
  | false =>
      have length : (left.concat right).nodes.length = _ := length_concat notEmpty
      constructor
      · rw [start_concat notEmpty, length]
        exact Nat.lt_add_right _ first.start
      · rw [finish_concat notEmpty, length]
        exact Nat.add_comm _ _ ▸ Nat.add_lt_add_left second.finish _
      · intro position next jump
        rw [length]
        rcases (mem_jumpsFrom_concat first.finish notEmpty).1 jump with
          (jump | ⟨source, target, rfl, rfl, innerJump⟩) | ⟨rfl, rfl⟩
        · exact Nat.lt_add_right _ (first.jumps jump)
        · have := second.jumps innerJump
          omega
        · have := second.start
          omega
      · intro position edge leaves
        rw [length]
        rcases (mem_edgesFrom_concat notEmpty).1 leaves with
          leaves | ⟨source, moved, rfl, rfl, innerEdge⟩
        · exact Nat.lt_add_right _ (first.edges leaves)
        · have := second.edges innerEdge
          simp only [Edge.shift]
          omega

/-- A sequence ends without exit if its second part does. -/
theorem NoExit.concat (inRange : left.InRange) (noExit : right.NoExit) :
    (left.concat right).NoExit := by
  cases notEmpty : left.isEmpty with
  | true => rwa [Automaton.concat, notEmpty, if_pos rfl]
  | false =>
      constructor
      · intro next jump
        rw [finish_concat notEmpty] at jump
        rcases (mem_jumpsFrom_concat inRange.finish notEmpty).1 jump with
          (jump | ⟨source, target, same, rfl, innerJump⟩) | ⟨same, rfl⟩
        · have := lt_length_of_mem_jumpsFrom jump
          omega
        -- only the second part reaches so far, and it has no exit
        · obtain rfl : right.finish = source := by omega
          exact noExit.jumps _ innerJump
        · have := inRange.finish
          omega
      · intro edge leaves
        rw [finish_concat notEmpty] at leaves
        rcases (mem_edgesFrom_concat notEmpty).1 leaves with
          leaves | ⟨source, moved, same, rfl, innerEdge⟩
        · have := lt_length_of_mem_edgesFrom leaves
          omega
        · obtain rfl : right.finish = source := by omega
          exact noExit.edges _ innerEdge

end Concat

/-! ## (3) Alternations -/

section Alternate

variable {left right : Automaton}

/-- An alternation has the nodes of both parts, a start and an end. -/
theorem length_alternate :
    (left.alternate right).nodes.length = left.nodes.length + right.nodes.length + 2 := by
  simp [alternate, addJump, addNode, shift, Nat.add_assoc]

/-- The start of an alternation is the node behind those of both parts. -/
theorem start_alternate :
    (left.alternate right).start = left.nodes.length + right.nodes.length := by
  simp [alternate, shift]

/-- The end of an alternation is the last node. -/
theorem finish_alternate :
    (left.alternate right).finish = left.nodes.length + right.nodes.length + 1 := by
  simp [alternate, shift]

/-- An alternation has the jumps of both parts, those from the new start to both starts, and those
from both ends to the new end. -/
theorem mem_jumpsFrom_alternate (leftFinish : left.finish < left.nodes.length)
    (rightFinish : right.finish < right.nodes.length) {position next : Nat} :
    next ∈ (left.alternate right).jumpsFrom position ↔
      ((next ∈ left.jumpsFrom position ∨
        ∃ inner target, position = inner + left.nodes.length ∧
          next = target + left.nodes.length ∧ target ∈ right.jumpsFrom inner) ∨
        position = left.nodes.length + right.nodes.length ∧
          (next = left.start ∨ next = right.start + left.nodes.length)) ∨
        (position = left.finish ∨ position = right.finish + left.nodes.length) ∧
          next = left.nodes.length + right.nodes.length + 1 := by
  have length : (beside left right left.start left.finish).nodes.length =
      left.nodes.length + right.nodes.length := length_beside ..
  change next ∈ ((((beside left right left.start left.finish).addNode
    [left.start, right.start + left.nodes.length]).addNode []).addJump left.finish
      ((beside left right left.start left.finish).nodes.length + 1)
      |>.addJump (right.finish + left.nodes.length)
        ((beside left right left.start left.finish).nodes.length + 1)).jumpsFrom position ↔ _
  rw [mem_jumpsFrom_addJump (by simp; omega), mem_jumpsFrom_addJump (by simp; omega),
    mem_jumpsFrom_addNode, mem_jumpsFrom_addNode, mem_jumpsFrom_beside, length]
  simp only [List.mem_cons, List.not_mem_nil, or_false, and_false, or_and_right, or_assoc]

/-- An alternation has the edges of both parts. -/
theorem mem_edgesFrom_alternate {position : Nat} {edge : Edge} :
    edge ∈ (left.alternate right).edgesFrom position ↔
      edge ∈ left.edgesFrom position ∨
        ∃ inner moved, position = inner + left.nodes.length ∧
          edge = moved.shift left.nodes.length ∧ moved ∈ right.edgesFrom inner := by
  rw [← @mem_edgesFrom_beside left right left.start left.finish]
  change edge ∈ ((((beside left right left.start left.finish).addNode _).addNode _).addJump _ _
    |>.addJump _ _).edgesFrom position ↔ _
  rw [edgesFrom_addJump, edgesFrom_addJump, edgesFrom_addNode, edgesFrom_addNode]

/-- An alternation of automata in range is in range. -/
theorem InRange.alternate (first : left.InRange) (second : right.InRange) :
    (left.alternate right).InRange := by
  have leftStart := first.start
  have rightStart := second.start
  constructor
  · rw [start_alternate, length_alternate]
    omega
  · rw [finish_alternate, length_alternate]
    omega
  · intro position next jump
    rw [length_alternate]
    rcases (mem_jumpsFrom_alternate first.finish second.finish).1 jump with
      ((jump | ⟨source, target, rfl, rfl, innerJump⟩) | ⟨-, rfl | rfl⟩) | ⟨-, rfl⟩
    · have := first.jumps jump
      omega
    · have := second.jumps innerJump
      omega
    all_goals omega
  · intro position edge leaves
    rw [length_alternate]
    rcases mem_edgesFrom_alternate.1 leaves with leaves | ⟨source, moved, rfl, rfl, innerEdge⟩
    · have := first.edges leaves
      omega
    · have := second.edges innerEdge
      simp only [Edge.shift]
      omega

/-- An alternation ends without exit. -/
theorem NoExit.alternate (first : left.InRange) (second : right.InRange) :
    (left.alternate right).NoExit := by
  have leftFinish := first.finish
  have rightFinish := second.finish
  constructor
  · intro next jump
    rw [finish_alternate] at jump
    rcases (mem_jumpsFrom_alternate first.finish second.finish).1 jump with
      ((jump | ⟨source, target, same, rfl, innerJump⟩) | ⟨same, -⟩) | ⟨same | same, -⟩
    · have := lt_length_of_mem_jumpsFrom jump
      omega
    · have := lt_length_of_mem_jumpsFrom innerJump
      omega
    all_goals omega
  · intro edge leaves
    rw [finish_alternate] at leaves
    rcases mem_edgesFrom_alternate.1 leaves with leaves | ⟨source, moved, same, rfl, innerEdge⟩
    · have := lt_length_of_mem_edgesFrom leaves
      omega
    · have := lt_length_of_mem_edgesFrom innerEdge
      omega

/-- A path to the end of an alternation stays in one part up to the end of that part. -/
theorem path_alternate (first : left.InRange) (second : right.InRange) {position : Nat}
    {word : Text} (path : (left.alternate right).Path (left.alternate right).finish position word) :
    (position < left.nodes.length → left.Path left.finish position word) ∧
      (∀ inner < right.nodes.length, position = inner + left.nodes.length →
        right.Path right.finish inner word) := by
  have leftFinish := first.finish
  have rightFinish := second.finish
  -- the induction is on the path, as for sequences; here a part is left only for the end
  induction path with
  | stop =>
      rw [finish_alternate]
      exact ⟨fun inside => by omega, fun inner less same => by omega⟩
  | jump jump path ih =>
      rcases (mem_jumpsFrom_alternate first.finish second.finish).1 jump with
        ((jump | ⟨source, target, rfl, rfl, innerJump⟩) | ⟨rfl, -⟩) | ⟨same, rfl⟩
      · have := lt_length_of_mem_jumpsFrom jump
        exact ⟨fun _ => .jump jump (ih.1 (first.jumps jump)), fun inner less same => by omega⟩
      · refine ⟨fun inside => by omega, fun inner less same => ?_⟩
        obtain rfl : source = inner := by omega
        exact .jump innerJump (ih.2 target (second.jumps innerJump) rfl)
      · exact ⟨fun inside => by omega, fun inner less same => by omega⟩
      · -- the new end is reached, and nothing leads on from there
        rw [← @finish_alternate left right] at path
        rw [(NoExit.alternate first second).eq_nil path]
        refine ⟨fun inside => ?_, fun inner less behind => ?_⟩
        · obtain rfl : left.finish = _ := (same.resolve_right (by omega)).symm
          exact .stop
        · obtain rfl : right.finish = inner := by omega
          exact .stop
  | edge leaves member _ ih =>
      rcases mem_edgesFrom_alternate.1 leaves with leaves | ⟨source, moved, rfl, rfl, innerEdge⟩
      · have := lt_length_of_mem_edgesFrom leaves
        exact ⟨fun _ => .edge leaves member (ih.1 (first.edges leaves)),
          fun inner less same => by omega⟩
      · refine ⟨fun inside => by omega, fun inner less same => ?_⟩
        obtain rfl : source = inner := by omega
        exact .edge innerEdge member (ih.2 moved.target (second.edges innerEdge) rfl)

/-- From the start of an alternation, jumps lead to the starts of both parts. -/
theorem mem_jumpsFrom_start_alternate (first : left.InRange) (second : right.InRange)
    {next : Nat} :
    next ∈ (left.alternate right).jumpsFrom (left.alternate right).start ↔
      next = left.start ∨ next = right.start + left.nodes.length := by
  have leftFinish := first.finish
  have rightFinish := second.finish
  rw [start_alternate, mem_jumpsFrom_alternate first.finish second.finish]
  constructor
  · rintro (((jump | ⟨source, target, same, -, innerJump⟩) | ⟨-, starts⟩) | ⟨same | same, -⟩)
    · have := lt_length_of_mem_jumpsFrom jump
      omega
    · have := lt_length_of_mem_jumpsFrom innerJump
      omega
    · exact starts
    all_goals omega
  · exact fun starts => .inl (.inr ⟨rfl, starts⟩)

/-- From the start of an alternation no edge leads on. -/
theorem not_mem_edgesFrom_start_alternate (edge : Edge) :
    edge ∉ (left.alternate right).edgesFrom (left.alternate right).start := by
  intro leaves
  rw [start_alternate] at leaves
  rcases mem_edgesFrom_alternate.1 leaves with leaves | ⟨source, moved, same, -, innerEdge⟩
  · have := lt_length_of_mem_edgesFrom leaves
    omega
  · have := lt_length_of_mem_edgesFrom innerEdge
    omega

/-- **An alternation** accepts the sum of the languages. -/
theorem language_alternate (first : left.InRange) (second : right.InRange) :
    (left.alternate right).language = left.language + right.language := by
  have jumps {position next : Nat} : next ∈ (left.alternate right).jumpsFrom position ↔ _ :=
    mem_jumpsFrom_alternate first.finish second.finish
  have enter {next : Nat} :
      next ∈ (left.alternate right).jumpsFrom (left.alternate right).start ↔ _ :=
    mem_jumpsFrom_start_alternate first second
  ext word
  rw [mem_language, Language.mem_add, mem_language, mem_language]
  constructor
  · intro path
    have leadsOn : (left.alternate right).start ≠ (left.alternate right).finish := by
      rw [start_alternate, finish_alternate]
      omega
    -- the first jump of a path leads from the new start into one of the parts
    obtain ⟨next, jump, path⟩ := path.exists_jump leadsOn not_mem_edgesFrom_start_alternate
    have parts := path_alternate first second path
    rcases enter.1 jump with rfl | rfl
    · exact .inl (parts.1 first.start)
    · exact .inr (parts.2 _ second.start rfl)
  · rintro (path | path)
    -- a word of a part is framed by the jump from the start and that to the end
    · have inside : (left.alternate right).Path left.finish left.start word :=
        path.mono (fun jump => jumps.2 (.inl (.inl (.inl jump))))
          fun leaves => mem_edgesFrom_alternate.2 (.inl leaves)
      exact inside.framed (enter.2 (.inl rfl)) (jumps.2 (.inr ⟨.inl rfl, finish_alternate⟩))
    · have inside : (left.alternate right).Path (right.finish + left.nodes.length)
          (right.start + left.nodes.length) word :=
        path.embed (· + left.nodes.length)
          (fun jump => jumps.2 (.inl (.inl (.inr ⟨_, _, rfl, rfl, jump⟩))))
          fun leaves => ⟨_, mem_edgesFrom_alternate.2 (.inr ⟨_, _, rfl, rfl, leaves⟩), rfl, rfl⟩
      exact inside.framed (enter.2 (.inr rfl)) (jumps.2 (.inr ⟨.inr rfl, finish_alternate⟩))

end Alternate

/-! ## (4) Options and repetitions -/

section Repetition

variable {automaton : Automaton}

/-- An option has the jumps of its operand, and those from the new start to the old start and to the
end. -/
theorem mem_jumpsFrom_optional {position next : Nat} :
    next ∈ automaton.optional.jumpsFrom position ↔
      next ∈ automaton.jumpsFrom position ∨
        position = automaton.nodes.length ∧
          (next = automaton.start ∨ next = automaton.finish) := by
  change next ∈ (automaton.addNode [automaton.start, automaton.finish]).jumpsFrom position ↔ _
  rw [mem_jumpsFrom_addNode]
  simp

/-- An option has the edges of its operand. -/
theorem edgesFrom_optional (position : Nat) :
    automaton.optional.edgesFrom position = automaton.edgesFrom position :=
  edgesFrom_addNode ..

/-- An option of an automaton in range is in range. -/
theorem InRange.optional (inRange : automaton.InRange) : automaton.optional.InRange := by
  have length : automaton.optional.nodes.length = automaton.nodes.length + 1 := length_addNode ..
  have start := inRange.start
  have finish := inRange.finish
  constructor
  · rw [length]
    exact Nat.lt_succ_self _
  · rw [length]
    exact Nat.lt_succ_of_lt finish
  · intro position next jump
    rw [length]
    rcases mem_jumpsFrom_optional.1 jump with jump | ⟨-, rfl | rfl⟩
    · exact Nat.lt_succ_of_lt (inRange.jumps jump)
    all_goals omega
  · intro position edge leaves
    rw [edgesFrom_optional] at leaves
    rw [length]
    exact Nat.lt_succ_of_lt (inRange.edges leaves)

/-- An option ends without exit if its operand does. -/
theorem NoExit.optional (inRange : automaton.InRange) (noExit : automaton.NoExit) :
    automaton.optional.NoExit := by
  constructor
  · intro next jump
    rcases mem_jumpsFrom_optional.1 jump with jump | ⟨same, -⟩
    · exact noExit.jumps next jump
    · exact absurd inRange.finish (Nat.not_lt_of_ge (Nat.le_of_eq same.symm))
  · intro edge leaves
    rw [edgesFrom_optional] at leaves
    exact noExit.edges edge leaves

/-- A path to the end of an option stays in its operand once it is there. -/
theorem path_optional (inRange : automaton.InRange) {position : Nat} {word : Text}
    (path : automaton.optional.Path automaton.finish position word) :
    position < automaton.nodes.length → automaton.Path automaton.finish position word := by
  induction path with
  | stop => exact fun _ => .stop
  | jump jump _ ih =>
      intro inside
      rcases mem_jumpsFrom_optional.1 jump with jump | ⟨rfl, -⟩
      · exact .jump jump (ih (inRange.jumps jump))
      · omega
  | edge leaves member _ ih =>
      intro inside
      rw [edgesFrom_optional] at leaves
      exact .edge leaves member (ih (inRange.edges leaves))

/-- From the start of an option, jumps lead to the old start and to the end. -/
theorem mem_jumpsFrom_start_optional {next : Nat} :
    next ∈ automaton.optional.jumpsFrom automaton.optional.start ↔
      next = automaton.start ∨ next = automaton.finish := by
  change next ∈ automaton.optional.jumpsFrom automaton.nodes.length ↔ _
  rw [mem_jumpsFrom_optional]
  constructor
  · rintro (jump | ⟨-, ends⟩)
    · exact absurd (lt_length_of_mem_jumpsFrom jump) (Nat.lt_irrefl _)
    · exact ends
  · exact fun ends => .inr ⟨rfl, ends⟩

/-- From the start of an option no edge leads on. -/
theorem not_mem_edgesFrom_start_optional (edge : Edge) :
    edge ∉ automaton.optional.edgesFrom automaton.optional.start := by
  intro leaves
  rw [edgesFrom_optional] at leaves
  exact Nat.lt_irrefl _ (lt_length_of_mem_edgesFrom leaves)

/-- **An option** accepts the language of its operand and the empty text. -/
theorem language_optional (inRange : automaton.InRange) (noExit : automaton.NoExit) :
    automaton.optional.language = automaton.language + 1 := by
  ext word
  rw [mem_language, Language.mem_add, mem_language, Language.mem_one]
  constructor
  · intro path
    have leadsOn : automaton.optional.start ≠ automaton.optional.finish :=
      Nat.ne_of_gt inRange.finish
    obtain ⟨next, jump, path⟩ := path.exists_jump leadsOn not_mem_edgesFrom_start_optional
    rcases mem_jumpsFrom_start_optional.1 jump with rfl | rfl
    · exact .inl (path_optional inRange path inRange.start)
    -- the jump that skips the operand leads to its end, where nothing goes on
    · exact .inr (noExit.eq_nil (path_optional inRange path inRange.finish))
  · rintro (path | rfl)
    · exact .jump (mem_jumpsFrom_start_optional.2 (.inl rfl))
        (path.mono (fun jump => mem_jumpsFrom_optional.2 (.inl jump))
          fun leaves => (edgesFrom_optional _).symm ▸ leaves)
    · exact .jump (mem_jumpsFrom_start_optional.2 (.inr rfl)) .stop

/-- A repetition has the jumps of its operand, those from the new start to the old start and to the
old end, and those from the old end to the new end and back to the old start. -/
theorem mem_jumpsFrom_star (finish : automaton.finish < automaton.nodes.length)
    {position next : Nat} :
    next ∈ automaton.star.jumpsFrom position ↔
      (next ∈ automaton.jumpsFrom position ∨
        position = automaton.nodes.length ∧
          (next = automaton.start ∨ next = automaton.finish)) ∨
        position = automaton.finish ∧
          (next = automaton.nodes.length + 1 ∨ next = automaton.start) := by
  change next ∈ (((automaton.addNode [automaton.start, automaton.finish]).addNode []).addJump
    automaton.finish (automaton.nodes.length + 1) |>.addJump automaton.finish
      automaton.start).jumpsFrom position ↔ _
  rw [mem_jumpsFrom_addJump (by simp; omega), mem_jumpsFrom_addJump (by simp; omega),
    mem_jumpsFrom_addNode, mem_jumpsFrom_addNode]
  simp only [List.mem_cons, List.not_mem_nil, or_false, and_false, and_or_left, or_assoc]

/-- A repetition has the edges of its operand. -/
theorem edgesFrom_star (position : Nat) :
    automaton.star.edgesFrom position = automaton.edgesFrom position := by
  change (((automaton.addNode _).addNode _).addJump _ _ |>.addJump _ _).edgesFrom position = _
  rw [edgesFrom_addJump, edgesFrom_addJump, edgesFrom_addNode, edgesFrom_addNode]

/-- A repetition has two more nodes than its operand. -/
theorem length_star : automaton.star.nodes.length = automaton.nodes.length + 2 := by
  simp [star, addJump, addNode]

/-- A repetition of an automaton in range is in range. -/
theorem InRange.star (inRange : automaton.InRange) : automaton.star.InRange := by
  have start := inRange.start
  have finish := inRange.finish
  constructor
  · rw [length_star]
    exact Nat.lt_add_of_pos_right Nat.two_pos
  · rw [length_star]
    exact Nat.lt_succ_self _
  · intro position next jump
    rw [length_star]
    rcases (mem_jumpsFrom_star inRange.finish).1 jump with
      (jump | ⟨-, rfl | rfl⟩) | ⟨-, rfl | rfl⟩
    · have := inRange.jumps jump
      omega
    all_goals omega
  · intro position edge leaves
    rw [edgesFrom_star] at leaves
    have := inRange.edges leaves
    rw [length_star]
    omega

/-- A repetition ends without exit. -/
theorem NoExit.star (inRange : automaton.InRange) : automaton.star.NoExit := by
  have finish := inRange.finish
  constructor
  · intro next jump
    change next ∈ automaton.star.jumpsFrom (automaton.nodes.length + 1) at jump
    rcases (mem_jumpsFrom_star inRange.finish).1 jump with (jump | ⟨same, -⟩) | ⟨same, -⟩
    · have := lt_length_of_mem_jumpsFrom jump
      omega
    all_goals omega
  · intro edge leaves
    change edge ∈ automaton.star.edgesFrom (automaton.nodes.length + 1) at leaves
    rw [edgesFrom_star] at leaves
    have := lt_length_of_mem_edgesFrom leaves
    omega

/-- A path from inside a repetition to its end goes to the end of the operand, and repeats from
there. -/
theorem path_star (inRange : automaton.InRange) {position : Nat} {word : Text}
    (path : automaton.star.Path automaton.star.finish position word) :
    position < automaton.nodes.length → ∃ first second, word = first ++ second ∧
      automaton.Path automaton.finish position first ∧
        second ∈ KStar.kstar automaton.language := by
  -- the induction is on the path; behind the end of the operand it either ends or
  -- comes back to the start
  induction path with
  | stop =>
      intro inside
      change automaton.nodes.length + 1 < automaton.nodes.length at inside
      omega
  | jump jump path ih =>
      intro inside
      rcases (mem_jumpsFrom_star inRange.finish).1 jump with
        (jump | ⟨rfl, -⟩) | ⟨rfl, rfl | rfl⟩
      · obtain ⟨first, second, rfl, before, behind⟩ := ih (inRange.jumps jump)
        exact ⟨first, second, rfl, .jump jump before, behind⟩
      · omega
      · exact ⟨[], [], (NoExit.star inRange).eq_nil path, .stop, Language.nil_mem_kstar _⟩
      · obtain ⟨first, second, rfl, before, behind⟩ := ih inRange.start
        refine ⟨[], first ++ second, rfl, .stop, ?_⟩
        rw [← Language.one_add_self_mul_kstar_eq_kstar]
        exact .inr (Language.append_mem_mul before behind)
  | edge leaves member _ ih =>
      intro inside
      rw [edgesFrom_star] at leaves
      obtain ⟨first, second, rfl, before, behind⟩ := ih (inRange.edges leaves)
      exact ⟨_ :: first, second, rfl, .edge leaves member before, behind⟩

/-- From the start of a repetition, jumps lead to the old start and to the old end. -/
theorem mem_jumpsFrom_start_star (inRange : automaton.InRange) {next : Nat} :
    next ∈ automaton.star.jumpsFrom automaton.star.start ↔
      next = automaton.start ∨ next = automaton.finish := by
  change next ∈ automaton.star.jumpsFrom automaton.nodes.length ↔ _
  rw [mem_jumpsFrom_star inRange.finish]
  constructor
  · rintro ((jump | ⟨-, ends⟩) | ⟨same, -⟩)
    · exact absurd (lt_length_of_mem_jumpsFrom jump) (Nat.lt_irrefl _)
    · exact ends
    · exact absurd inRange.finish (Nat.not_lt_of_ge (Nat.le_of_eq same))
  · exact fun ends => .inl (.inr ⟨rfl, ends⟩)

/-- From the start of a repetition no edge leads on. -/
theorem not_mem_edgesFrom_start_star (edge : Edge) :
    edge ∉ automaton.star.edgesFrom automaton.star.start := by
  intro leaves
  rw [edgesFrom_star] at leaves
  exact Nat.lt_irrefl _ (lt_length_of_mem_edgesFrom leaves)

/-- **A repetition** accepts the star of the language of its operand. -/
theorem language_star (inRange : automaton.InRange) (noExit : automaton.NoExit) :
    automaton.star.language = KStar.kstar automaton.language := by
  have jumps {position next : Nat} : next ∈ automaton.star.jumpsFrom position ↔ _ :=
    mem_jumpsFrom_star inRange.finish
  ext word
  rw [mem_language]
  constructor
  · intro path
    have leadsOn : automaton.star.start ≠ automaton.star.finish := Nat.ne_of_lt (Nat.lt_succ_self _)
    obtain ⟨next, jump, path⟩ := path.exists_jump leadsOn not_mem_edgesFrom_start_star
    have leaves := path_star inRange path
    -- the first jump leads to the start of the operand or right to its end
    rcases (mem_jumpsFrom_start_star inRange).1 jump with rfl | rfl
    · obtain ⟨first, second, rfl, before, behind⟩ := leaves inRange.start
      rw [← Language.one_add_self_mul_kstar_eq_kstar]
      exact .inr (Language.append_mem_mul before behind)
    · obtain ⟨first, second, rfl, before, behind⟩ := leaves inRange.finish
      rw [noExit.eq_nil before]
      exact behind
  · intro repeated
    obtain ⟨words, rfl, each⟩ := Language.mem_kstar.1 repeated
    -- from the old end one may stop, or go back and run through one more word
    have onward : automaton.star.Path automaton.star.finish automaton.finish words.flatten := by
      clear repeated
      induction words with
      | nil => exact .jump (jumps.2 (.inr ⟨rfl, .inl rfl⟩)) .stop
      | cons first rest ih =>
          have once : automaton.star.Path automaton.finish automaton.start first :=
            (mem_language.1 (each first (by simp))).mono (fun jump => jumps.2 (.inl (.inl jump)))
              fun leaves => (edgesFrom_star _).symm ▸ leaves
          exact .jump (jumps.2 (.inr ⟨rfl, .inr rfl⟩))
            (once.trans (ih fun word member => each word (List.mem_cons_of_mem _ member)))
    exact .jump ((mem_jumpsFrom_start_star inRange).2 (.inr rfl)) onward

end Repetition

end Lexer.Automaton
