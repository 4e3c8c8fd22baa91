import Lexer.Pattern.Nesting

/-! # The depth of a tree

The nesting limit bounds every path of a tree.  **The depth** of a tree is the greatest number of constructs on
a path from its root to a leaf: stars, groups, empty texts, alternations of at least two branches and sequences
of at least two items.  There is room for a tree exactly if it is at most as deep as there is room, wherever in
a pattern it stands. -/

namespace Lexer

/-! ## (1) Depth -/

/-- The construct that several parts make together, if there are several. -/
def Pattern.several (count : Nat) : Nat :=
  if 2 ≤ count then 1 else 0

mutual

/-- **The depth of an item**: the greatest number of constructs on a path in it. -/
def Item.depth : Item → Nat
  | .char _ => 0
  | .blank => 1
  | .group branches => 1 + (Pattern.several branches.length + Pattern.branchesDepth branches)
  | .star operand => 1 + operand.depth

/-- The greatest depth of some items. -/
def Pattern.itemsDepth : List Item → Nat
  | [] => 0
  | item :: rest => max item.depth (Pattern.itemsDepth rest)

/-- The greatest depth of some branches, each of which may be a sequence of several items. -/
def Pattern.branchesDepth : List (List Item) → Nat
  | [] => 0
  | branch :: rest =>
      max (Pattern.several branch.length + Pattern.itemsDepth branch) (Pattern.branchesDepth rest)

end

namespace Pattern

/-- **The depth of a pattern.** -/
def depth (pattern : Pattern) : Nat :=
  several pattern.length + branchesDepth pattern

end Pattern

/-! ## (2) Room -/

/-- A construct has room if there is room for it, and for its parts in what is left. -/
theorem Span.enter_eq_none_iff {span : Span} {room inside : Nat} {find : Nat → Option Span}
    (parts : ∀ left, find left = none ↔ inside ≤ left) :
    span.enter room find = none ↔ 1 + inside ≤ room := by
  cases room with
  | zero =>
      rw [Span.enter]
      exact iff_of_false (Option.some_ne_none _) (by omega)
  | succ left =>
      rw [Span.enter, parts]
      omega

/-- Several parts have room if there is room for the construct that they make, and for each of them. -/
theorem Span.enter_several_iff {span : Span} {count room inside : Nat} {find : Nat → Option Span}
    (parts : ∀ left, find left = none ↔ inside ≤ left) :
    (if 2 ≤ count then span.enter room find else find room) = none ↔
      Pattern.several count + inside ≤ room := by
  rw [Pattern.several]
  split
  · exact Span.enter_eq_none_iff parts
  · rw [parts, Nat.zero_add]

mutual

/-- **There is room for an item** that is not deeper. -/
theorem Item.tooDeep_eq_none_iff : (item : Item) → ∀ room start,
    item.tooDeep room start = none ↔ item.depth ≤ room
  | .char _ => by
      intro room start
      rw [Item.tooDeep, Item.depth]
      exact iff_of_true rfl (Nat.zero_le _)
  | .blank => by
      intro room start
      rw [Item.tooDeep, Item.depth]
      exact Span.enter_eq_none_iff fun left => iff_of_true rfl (Nat.zero_le left)
  | .group branches => by
      intro room start
      rw [Item.tooDeep, Item.depth]
      exact Span.enter_eq_none_iff fun left => Span.enter_several_iff fun room =>
        Pattern.branchesTooDeep_eq_none_iff branches room (start + 1)
  | .star operand => by
      intro room start
      rw [Item.tooDeep, Item.depth]
      exact Span.enter_eq_none_iff fun left => Item.tooDeep_eq_none_iff operand left start

/-- There is room for some items if there is for each. -/
theorem Pattern.itemsTooDeep_eq_none_iff : (items : List Item) → ∀ room start,
    Pattern.itemsTooDeep room start items = none ↔ Pattern.itemsDepth items ≤ room
  | [] => by
      intro room start
      rw [Pattern.itemsTooDeep, Pattern.itemsDepth]
      exact iff_of_true rfl (Nat.zero_le _)
  | item :: rest => by
      intro room start
      rw [Pattern.itemsTooDeep, Pattern.itemsDepth, Option.or_eq_none_iff, Nat.max_le,
        Item.tooDeep_eq_none_iff item, Pattern.itemsTooDeep_eq_none_iff rest]

/-- There is room for some branches if there is for each. -/
theorem Pattern.branchesTooDeep_eq_none_iff : (branches : List (List Item)) → ∀ room start,
    Pattern.branchesTooDeep room start branches = none ↔ Pattern.branchesDepth branches ≤ room
  | [] => by
      intro room start
      rw [Pattern.branchesTooDeep, Pattern.branchesDepth]
      exact iff_of_true rfl (Nat.zero_le _)
  | branch :: rest => by
      intro room start
      rw [Pattern.branchesTooDeep, Pattern.branchesDepth, Option.or_eq_none_iff, Nat.max_le,
        Pattern.branchesTooDeep_eq_none_iff rest]
      exact and_congr_left' (Span.enter_several_iff fun left =>
        Pattern.itemsTooDeep_eq_none_iff branch left start)

end

/-- **A pattern is not too deep** if its depth is within the nesting limit. -/
theorem Pattern.tooDeep_eq_none_iff (pattern : Pattern) :
    Pattern.tooDeep pattern = none ↔ pattern.depth ≤ Pattern.nestingLimit := by
  rw [Pattern.tooDeep, Pattern.depth]
  exact Span.enter_several_iff fun left => Pattern.branchesTooDeep_eq_none_iff pattern left 0

end Lexer
