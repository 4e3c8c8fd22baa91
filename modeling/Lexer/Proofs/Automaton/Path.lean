import Lexer.Automaton.Build
import Mathlib.Computability.Language
import Mathlib.Tactic.Common

/-! # Paths through automata

**A path** leads from a position to a goal: jumps are free, and each edge consumes one character of its
set.  The words on the paths from the start to the end are **the language** of an automaton.  Paths
carry over from one automaton into another that has all its jumps and edges, possibly at other
positions.  The jumps and edges of an automaton that is put together are those of its parts and the
ones that were added; each building block has one lemma that says so. -/

namespace Lexer.Automaton

/-- **A path** from a position to a goal, with the word that it consumes. -/
inductive Path (automaton : Automaton) (goal : Nat) : (position : Nat) → (word : Text) → Prop where
  /-- The goal is reached. -/
  | stop : Path automaton goal goal []
  /-- A jump, and a path behind it. -/
  | jump {position next : Nat} {word : Text} (jump : next ∈ automaton.jumpsFrom position)
      (path : Path automaton goal next word) : Path automaton goal position word
  /-- An edge that consumes one character, and a path behind it. -/
  | edge {position : Nat} {edge : Edge} {c : Char} {word : Text}
      (leaves : edge ∈ automaton.edgesFrom position) (member : edge.chars.Member c)
      (path : Path automaton goal edge.target word) : Path automaton goal position (c :: word)

/-- **The language** of an automaton: the words on its paths from the start to the end. -/
def language (automaton : Automaton) : Language Char :=
  { word | automaton.Path automaton.finish automaton.start word }

/-- A word is in the language if a path from the start to the end consumes it. -/
theorem mem_language {automaton : Automaton} {word : Text} :
    word ∈ automaton.language ↔ automaton.Path automaton.finish automaton.start word :=
  Iff.rfl

namespace Path

/-- Two paths in a row. -/
theorem trans {automaton : Automaton} {middle goal position : Nat} {left right : Text}
    (first : automaton.Path middle position left) (second : automaton.Path goal middle right) :
    automaton.Path goal position (left ++ right) := by
  induction first with
  | stop => exact second
  | jump jump _ ih => exact .jump jump ih
  | edge edge member _ ih => exact .edge edge member ih

/-- **Paths carry over** along a map of positions that keeps jumps and edges. -/
theorem embed {inner outer : Automaton} (place : Nat → Nat)
    (jumps : ∀ {position next}, next ∈ inner.jumpsFrom position →
      place next ∈ outer.jumpsFrom (place position))
    (edges : ∀ {position edge}, edge ∈ inner.edgesFrom position →
      ∃ image ∈ outer.edgesFrom (place position),
        image.chars = edge.chars ∧ image.target = place edge.target)
    {goal position : Nat} {word : Text} (path : inner.Path goal position word) :
    outer.Path (place goal) (place position) word := by
  induction path with
  | stop => exact .stop
  | jump jump _ ih => exact .jump (jumps jump) ih
  | edge edge member _ ih =>
      obtain ⟨image, found, sameChars, sameTarget⟩ := edges edge
      exact .edge found (sameChars ▸ member) (sameTarget ▸ ih)

/-- Paths carry over into an automaton with more jumps and edges. -/
theorem mono {inner outer : Automaton}
    (jumps : ∀ {position next}, next ∈ inner.jumpsFrom position → next ∈ outer.jumpsFrom position)
    (edges : ∀ {position edge}, edge ∈ inner.edgesFrom position → edge ∈ outer.edgesFrom position)
    {goal position : Nat} {word : Text} (path : inner.Path goal position word) :
    outer.Path goal position word :=
  path.embed id jumps fun edge => ⟨_, edges edge, rfl, rfl⟩

/-- A path that is entered by a jump and left by another one. -/
theorem framed {automaton : Automaton} {position first last goal : Nat} {word : Text}
    (enter : first ∈ automaton.jumpsFrom position) (inside : automaton.Path last first word)
    (leave : goal ∈ automaton.jumpsFrom last) : automaton.Path goal position word := by
  have whole := inside.trans (.jump leave .stop)
  rw [List.append_nil] at whole
  exact .jump enter whole

/-- Where no edge starts, a path that leads on begins with a jump. -/
theorem exists_jump {automaton : Automaton} {goal position : Nat} {word : Text}
    (leadsOn : position ≠ goal) (noEdge : ∀ edge, edge ∉ automaton.edgesFrom position)
    (path : automaton.Path goal position word) :
    ∃ next ∈ automaton.jumpsFrom position, automaton.Path goal next word := by
  cases path with
  | stop => exact absurd rfl leadsOn
  | jump jump path => exact ⟨_, jump, path⟩
  | edge leaves _ _ => exact absurd leaves (noEdge _)

/-- Where nothing leads on, only the empty path starts. -/
theorem of_noExit {automaton : Automaton} {goal position : Nat} {word : Text}
    (noJump : ∀ next, next ∉ automaton.jumpsFrom position)
    (noEdge : ∀ edge, edge ∉ automaton.edgesFrom position)
    (path : automaton.Path goal position word) : word = [] ∧ position = goal := by
  cases path with
  | stop => exact ⟨rfl, rfl⟩
  | jump jump _ => exact absurd jump (noJump _)
  | edge edge _ _ => exact absurd edge (noEdge _)

end Path

/-! ## Building blocks -/

/-- The jumps from a position are those of its node. -/
theorem mem_jumpsFrom_iff {automaton : Automaton} {position next : Nat} :
    next ∈ automaton.jumpsFrom position ↔
      ∃ node, automaton.nodes[position]? = some node ∧ next ∈ node.jumps := by
  rw [jumpsFrom]
  cases automaton.nodes[position]? with
  | none => simp
  | some node => simp

/-- The edges from a position are those of its node. -/
theorem mem_edgesFrom_iff {automaton : Automaton} {position : Nat} {edge : Edge} :
    edge ∈ automaton.edgesFrom position ↔
      ∃ node, automaton.nodes[position]? = some node ∧ edge ∈ node.edges := by
  rw [edgesFrom]
  cases automaton.nodes[position]? with
  | none => simp
  | some node => simp

/-- There is a node where a jump starts. -/
theorem lt_length_of_mem_jumpsFrom {automaton : Automaton} {position next : Nat}
    (jump : next ∈ automaton.jumpsFrom position) : position < automaton.nodes.length := by
  obtain ⟨node, known, -⟩ := mem_jumpsFrom_iff.1 jump
  exact (List.getElem?_eq_some_iff.1 known).1

/-- There is a node where an edge starts. -/
theorem lt_length_of_mem_edgesFrom {automaton : Automaton} {position : Nat} {edge : Edge}
    (found : edge ∈ automaton.edgesFrom position) : position < automaton.nodes.length := by
  obtain ⟨node, known, -⟩ := mem_edgesFrom_iff.1 found
  exact (List.getElem?_eq_some_iff.1 known).1

/-- **An added jump** is the only new jump. -/
theorem mem_jumpsFrom_addJump {automaton : Automaton} {source target position next : Nat}
    (inside : source < automaton.nodes.length) :
    next ∈ (automaton.addJump source target).jumpsFrom position ↔
      next ∈ automaton.jumpsFrom position ∨ position = source ∧ next = target := by
  simp only [jumpsFrom, addJump, List.getElem?_modify]
  by_cases same : source = position
  · subst same
    rw [List.getElem?_eq_getElem inside]
    simp [Node.addJump]
  · cases automaton.nodes[position]? <;> simp [same, Ne.symm same]

/-- An added jump adds no edge. -/
@[simp] theorem edgesFrom_addJump (automaton : Automaton) (source target position : Nat) :
    (automaton.addJump source target).edgesFrom position = automaton.edgesFrom position := by
  simp only [edgesFrom, addJump, List.getElem?_modify]
  by_cases same : source = position
  · cases automaton.nodes[position]? <;> simp [same, Node.addJump]
  · cases automaton.nodes[position]? <;> simp [same]

/-- An added jump adds no node. -/
@[simp] theorem length_addJump (automaton : Automaton) (source target : Nat) :
    (automaton.addJump source target).nodes.length = automaton.nodes.length := by
  simp [addJump]

/-- **An added node** has its jumps. -/
theorem mem_jumpsFrom_addNode {automaton : Automaton} {jumps : List Nat} {position next : Nat} :
    next ∈ (automaton.addNode jumps).jumpsFrom position ↔
      next ∈ automaton.jumpsFrom position ∨
        position = automaton.nodes.length ∧ next ∈ jumps := by
  simp only [jumpsFrom, addNode, List.getElem?_append]
  -- the position is that of an old node, of the new one, or of none
  by_cases inside : position < automaton.nodes.length
  · rw [if_pos inside]
    simp [Nat.ne_of_lt inside]
  · rw [if_neg inside, List.getElem?_eq_none (Nat.le_of_not_lt inside)]
    by_cases same : position = automaton.nodes.length
    · simp [same]
    · rw [List.getElem?_eq_none (by simp; omega)]
      simp [same]

/-- An added node has no edge. -/
@[simp] theorem edgesFrom_addNode (automaton : Automaton) (jumps : List Nat) (position : Nat) :
    (automaton.addNode jumps).edgesFrom position = automaton.edgesFrom position := by
  simp only [edgesFrom, addNode, List.getElem?_append]
  by_cases inside : position < automaton.nodes.length
  · rw [if_pos inside]
  · rw [if_neg inside, List.getElem?_eq_none (Nat.le_of_not_lt inside)]
    by_cases same : position = automaton.nodes.length
    · simp [same]
    · rw [List.getElem?_eq_none (by simp; omega)]

/-- An added node is one more. -/
@[simp] theorem length_addNode (automaton : Automaton) (jumps : List Nat) :
    (automaton.addNode jumps).nodes.length = automaton.nodes.length + 1 := by
  simp [addNode]

/-- Two automata side by side, the second one moved behind the first, with any start and end. -/
def beside (left right : Automaton) (start finish : Nat) : Automaton :=
  ⟨left.nodes ++ (right.shift left.nodes.length).nodes, start, finish⟩

/-- **Side by side**, the jumps are those of both. -/
theorem mem_jumpsFrom_beside {left right : Automaton} {start finish position next : Nat} :
    next ∈ (beside left right start finish).jumpsFrom position ↔
      next ∈ left.jumpsFrom position ∨
        ∃ inner target, position = inner + left.nodes.length ∧
          next = target + left.nodes.length ∧ target ∈ right.jumpsFrom inner := by
  simp only [jumpsFrom, beside, shift, List.getElem?_append]
  -- positions below the length are those of the first automaton, and all others are
  -- moved positions of the second one
  by_cases inside : position < left.nodes.length
  · rw [if_pos inside]
    constructor
    · exact Or.inl
    · rintro (jump | ⟨inner, target, rfl, -, -⟩)
      · exact jump
      · omega
  · obtain ⟨inner, rfl⟩ := Nat.exists_eq_add_of_le' (Nat.le_of_not_lt inside)
    rw [if_neg inside, List.getElem?_eq_none (Nat.le_of_not_lt inside), Nat.add_sub_cancel,
      List.getElem?_map]
    cases found : right.nodes[inner]? <;> simp [found, Node.shift, eq_comm, and_comm]

/-- **Side by side**, the edges are those of both. -/
theorem mem_edgesFrom_beside {left right : Automaton} {start finish position : Nat} {edge : Edge} :
    edge ∈ (beside left right start finish).edgesFrom position ↔
      edge ∈ left.edgesFrom position ∨
        ∃ inner moved, position = inner + left.nodes.length ∧
          edge = moved.shift left.nodes.length ∧ moved ∈ right.edgesFrom inner := by
  simp only [edgesFrom, beside, shift, List.getElem?_append]
  by_cases inside : position < left.nodes.length
  · rw [if_pos inside]
    constructor
    · exact Or.inl
    · rintro (found | ⟨inner, moved, rfl, -, -⟩)
      · exact found
      · omega
  · obtain ⟨inner, rfl⟩ := Nat.exists_eq_add_of_le' (Nat.le_of_not_lt inside)
    rw [if_neg inside, List.getElem?_eq_none (Nat.le_of_not_lt inside), Nat.add_sub_cancel,
      List.getElem?_map]
    cases found : right.nodes[inner]? <;> simp [found, Node.shift, eq_comm, and_comm]

/-- Side by side, the nodes add up. -/
@[simp] theorem length_beside (left right : Automaton) (start finish : Nat) :
    (beside left right start finish).nodes.length = left.nodes.length + right.nodes.length := by
  simp [beside, shift]

end Lexer.Automaton
