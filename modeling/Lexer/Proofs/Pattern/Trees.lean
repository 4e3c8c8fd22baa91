import Lexer.Pattern.Parser
import Lexer.Proofs.Outcome

/-! # Trees and their symbols

Parsing undoes writing.  **A whole tree** has a branch wherever a pattern stands, as every tree that is parsed
does.  The symbols of a whole tree are parsed to that tree, whatever stands around it, and a reading can be
written down at any time: what it writes are the symbols that it took.  So some symbols have one tree at most,
the one that is parsed. -/

namespace Lexer

/-! ## (1) Whole trees -/

mutual

/-- **A whole item** has a branch in each of its groups. -/
def Item.Whole : Item → Prop
  | .char _ => True
  | .blank => True
  | .group branches => branches ≠ [] ∧ Pattern.BranchesWhole branches
  | .star operand => operand.Whole

/-- All items of a sequence are whole. -/
def Pattern.ItemsWhole : List Item → Prop
  | [] => True
  | item :: rest => item.Whole ∧ Pattern.ItemsWhole rest

/-- All items of some branches are whole. -/
def Pattern.BranchesWhole : List (List Item) → Prop
  | [] => True
  | branch :: rest => Pattern.ItemsWhole branch ∧ Pattern.BranchesWhole rest

end

namespace Pattern

variable {tree : Pattern} {symbols : List Symbol} {branches : List (List Item)} {items : List Item}

/-- Items are whole together if each of them is. -/
theorem itemsWhole_iff : ItemsWhole items ↔ ∀ item ∈ items, item.Whole := by
  induction items with
  | nil => simp [ItemsWhole]
  | cons item items ih => rw [ItemsWhole, ih, List.forall_mem_cons]

/-- Branches are whole if each of them is. -/
theorem branchesWhole_iff : BranchesWhole branches ↔ ∀ branch ∈ branches, ItemsWhole branch := by
  induction branches with
  | nil => simp [BranchesWhole]
  | cons branch branches ih => rw [BranchesWhole, ih, List.forall_mem_cons]

/-- **A tree of some symbols**: it is whole, and they are what it writes. -/
structure TreeOf (tree : Pattern) (symbols : List Symbol) : Prop where
  /-- There is a branch. -/
  branch : tree ≠ []
  /-- The branches are whole. -/
  whole : BranchesWhole tree
  /-- The symbols are those of the tree. -/
  written : Pattern.symbols tree = symbols

/-- A branch in front of others is set apart by a bar. -/
theorem symbols_cons (more : branches ≠ []) (branch : List Item) :
    Pattern.symbols (branch :: branches) =
      sequenceSymbols branch ++ .bar :: Pattern.symbols branches :=
  Pattern.symbols.eq_3 branch branches more

/-! ## (2) Reading what is written -/

end Pattern

open Pattern (Level Reading)

mutual

/-- **The symbols of an item** are read as the item. -/
theorem Item.read_symbols : (item : Item) → item.Whole → ∀ offset level enclosing,
    ∃ behind, item.symbols.foldlM Reading.step ⟨offset, level, enclosing⟩ =
      .ok ⟨behind, level.push item, enclosing⟩
  | .char c => by
      intro _ offset level enclosing
      rw [Item.symbols]
      exact ⟨_, rfl⟩
  | .blank => by
      intro _ offset level enclosing
      rw [Item.symbols]
      exact ⟨_, rfl⟩
  | .group branches => by
      intro whole offset level enclosing
      rw [Item.Whole] at whole
      obtain ⟨behind, inner, read, finished⟩ := Pattern.read_branches branches whole.1 whole.2
        (offset + Symbol.openGroup.width) [] ((offset, level) :: enclosing)
      rw [Item.symbols, List.foldlM_cons]
      refine ⟨behind + Symbol.closeGroup.width, ?_⟩
      change List.foldlM Reading.step ⟨offset + Symbol.openGroup.width, .fresh,
        (offset, level) :: enclosing⟩ _ = _
      rw [List.foldlM_append]
      obtain rfl : inner.finish = branches := finished
      exact Except.bind_eq_ok_iff.2 ⟨_, read, rfl⟩
  | .star operand => by
      intro whole offset level enclosing
      rw [Item.Whole] at whole
      obtain ⟨behind, read⟩ := Item.read_symbols operand whole offset level enclosing
      rw [Item.symbols, List.foldlM_append]
      exact ⟨_, Except.bind_eq_ok_iff.2 ⟨_, read, rfl⟩⟩

/-- The symbols of a sequence are read as its items. -/
theorem Pattern.read_items : (items : List Item) → Pattern.ItemsWhole items →
    ∀ offset branches before enclosing, ∃ behind,
      (Pattern.sequenceSymbols items).foldlM Reading.step ⟨offset, ⟨branches, before⟩, enclosing⟩ =
        .ok ⟨behind, ⟨branches, items.reverse ++ before⟩, enclosing⟩
  | [] => by
      intro _ offset branches before enclosing
      rw [Pattern.sequenceSymbols]
      exact ⟨offset, rfl⟩
  | item :: rest => by
      intro whole offset branches before enclosing
      rw [Pattern.ItemsWhole] at whole
      obtain ⟨middle, first⟩ := Item.read_symbols item whole.1 offset ⟨branches, before⟩ enclosing
      obtain ⟨behind, later⟩ := Pattern.read_items rest whole.2 middle branches (item :: before) enclosing
      refine ⟨behind, ?_⟩
      rw [Pattern.sequenceSymbols, List.foldlM_append, List.reverse_cons, List.append_assoc,
        List.singleton_append]
      exact Except.bind_eq_ok_iff.2 ⟨_, first, later⟩

/-- **The symbols of some branches** are read as a level that finishes with them. -/
theorem Pattern.read_branches : (branches : List (List Item)) → branches ≠ [] →
    Pattern.BranchesWhole branches → ∀ offset before enclosing, ∃ behind level,
      (Pattern.symbols branches).foldlM Reading.step ⟨offset, ⟨before, []⟩, enclosing⟩ =
        .ok ⟨behind, level, enclosing⟩ ∧ level.finish = before.reverse ++ branches
  | [] => by
      intro some
      exact absurd rfl some
  | [branch] => by
      intro _ whole offset before enclosing
      rw [Pattern.BranchesWhole] at whole
      obtain ⟨behind, read⟩ := Pattern.read_items branch whole.1 offset before [] enclosing
      refine ⟨behind, ⟨before, branch.reverse ++ []⟩, ?_, ?_⟩
      · rw [Pattern.symbols]
        exact read
      · rw [Level.finish, List.append_nil, List.reverse_reverse, List.reverse_cons]
  | branch :: next :: rest => by
      intro _ whole offset before enclosing
      rw [Pattern.BranchesWhole] at whole
      obtain ⟨middle, first⟩ := Pattern.read_items branch whole.1 offset before [] enclosing
      obtain ⟨behind, level, later, finished⟩ := Pattern.read_branches (next :: rest)
        (List.cons_ne_nil _ _) whole.2 (middle + Symbol.bar.width) (branch :: before) enclosing
      refine ⟨behind, level, ?_, ?_⟩
      · rw [Pattern.symbols_cons (List.cons_ne_nil _ _), List.foldlM_append]
        refine Except.bind_eq_ok_iff.2 ⟨_, first, ?_⟩
        rw [List.foldlM_cons]
        refine Except.bind_eq_ok_iff.2 ⟨_, rfl, ?_⟩
        rw [Level.nextBranch, List.append_nil, List.reverse_reverse]
        exact later
      · rw [finished, List.reverse_cons, List.append_assoc, List.singleton_append]

end

namespace Pattern

variable {tree : Pattern} {symbols : List Symbol} {branches : List (List Item)} {items : List Item}

/-- **The symbols of a tree** are parsed to it. -/
theorem TreeOf.ofSymbols_eq (treeOf : TreeOf tree symbols) : ofSymbols symbols = .ok tree := by
  obtain ⟨behind, level, read, finished⟩ :=
    read_branches tree treeOf.branch treeOf.whole 0 [] []
  rw [← treeOf.written, ofSymbols]
  exact Except.bind_eq_ok_iff.2 ⟨_, read, congrArg Except.ok finished⟩

/-! ## (3) Writing what was read -/

/-- Items follow each other. -/
theorem sequenceSymbols_append (before after : List Item) :
    sequenceSymbols (before ++ after) = sequenceSymbols before ++ sequenceSymbols after := by
  induction before with
  | nil => rw [sequenceSymbols, List.nil_append, List.nil_append]
  | cons item before ih =>
      rw [List.cons_append, sequenceSymbols, sequenceSymbols, ih, List.append_assoc]

/-- One item alone. -/
theorem sequenceSymbols_singleton (item : Item) : sequenceSymbols [item] = item.symbols := by
  rw [sequenceSymbols, sequenceSymbols, List.append_nil]

/-- A branch behind others is set apart by a bar. -/
theorem symbols_concat (more : branches ≠ []) (branch : List Item) :
    Pattern.symbols (branches ++ [branch]) =
      Pattern.symbols branches ++ .bar :: sequenceSymbols branch := by
  induction branches with
  | nil => exact absurd rfl more
  | cons first rest ih =>
      rw [List.cons_append, symbols_cons (List.append_ne_nil_of_right_ne_nil _ (List.cons_ne_nil _ _))]
      cases rest with
      | nil => rw [List.nil_append, Pattern.symbols, Pattern.symbols]
      | cons next rest =>
          rw [ih (List.cons_ne_nil _ _), symbols_cons (List.cons_ne_nil _ _), List.append_assoc,
            List.cons_append]

/-- The symbols of a level end in those of its current branch. -/
theorem exists_symbols_finish (branches : List (List Item)) : ∃ front, ∀ items,
    Pattern.symbols (Level.finish ⟨branches, items⟩) = front ++ sequenceSymbols items.reverse := by
  by_cases none : branches = []
  · subst none
    refine ⟨[], fun items => ?_⟩
    rw [Level.finish, List.reverse_singleton, Pattern.symbols, List.nil_append]
  · refine ⟨Pattern.symbols branches.reverse ++ [.bar], fun items => ?_⟩
    rw [Level.finish, List.reverse_cons, symbols_concat (mt List.reverse_eq_nil_iff.1 none),
      List.append_assoc, List.singleton_append]

/-- A level is whole if its items are, and those of its finished branches. -/
theorem branchesWhole_finish_iff : BranchesWhole (Level.finish ⟨branches, items⟩) ↔
    (∀ item ∈ items, item.Whole) ∧ ∀ branch ∈ branches, ItemsWhole branch := by
  rw [branchesWhole_iff, Level.finish]
  simp only [List.mem_reverse, List.forall_mem_cons]
  rw [itemsWhole_iff]
  simp only [List.mem_reverse]

/-- **A level goes on** to another one with some more symbols. -/
structure Level.GoesOn (level next : Level) (more : List Symbol) : Prop where
  /-- Its branches stay whole. -/
  whole : BranchesWhole level.finish → BranchesWhole next.finish
  /-- The new symbols are behind the old ones. -/
  written : Pattern.symbols next.finish = Pattern.symbols level.finish ++ more

/-- A level goes on with an item. -/
theorem Level.goesOn_push (level : Level) {item : Item} (whole : item.Whole) :
    level.GoesOn (level.push item) item.symbols := by
  obtain ⟨branches, items⟩ := level
  obtain ⟨front, written⟩ := exists_symbols_finish branches
  constructor
  · rw [branchesWhole_finish_iff, push, branchesWhole_finish_iff, List.forall_mem_cons]
    exact fun ⟨wholeItems, wholeBranches⟩ => ⟨⟨whole, wholeItems⟩, wholeBranches⟩
  · rw [push, written, written, List.reverse_cons, sequenceSymbols_append,
      sequenceSymbols_singleton, List.append_assoc]

/-- A level goes on with a star behind its last item. -/
theorem Level.goesOn_star (branches : List (List Item)) (operand : Item) (items : List Item) :
    Level.GoesOn ⟨branches, operand :: items⟩ ⟨branches, .star operand :: items⟩ [.star] := by
  obtain ⟨front, written⟩ := exists_symbols_finish branches
  constructor
  · rw [branchesWhole_finish_iff, branchesWhole_finish_iff, List.forall_mem_cons,
      List.forall_mem_cons, Item.Whole]
    exact id
  · rw [written, written, List.reverse_cons, List.reverse_cons, sequenceSymbols_append,
      sequenceSymbols_append, sequenceSymbols_singleton, sequenceSymbols_singleton, Item.symbols,
      ← List.append_assoc, ← List.append_assoc, ← List.append_assoc]

/-- A level goes on with a bar. -/
theorem Level.goesOn_nextBranch (level : Level) : level.GoesOn level.nextBranch [.bar] := by
  obtain ⟨branches, items⟩ := level
  constructor
  · rw [branchesWhole_finish_iff, nextBranch, branchesWhole_finish_iff, List.forall_mem_cons]
    intro ⟨wholeItems, wholeBranches⟩
    refine ⟨List.forall_mem_nil _, ?_, wholeBranches⟩
    rw [itemsWhole_iff]
    exact fun item member => wholeItems item (List.mem_reverse.1 member)
  · rw [nextBranch, finish, finish, List.reverse_cons, List.reverse_nil,
      symbols_concat (mt List.reverse_eq_nil_iff.1 (List.cons_ne_nil _ _)), sequenceSymbols]

/-- **The symbols that were taken** to get to a level inside others. -/
inductive Took : Level → List (Nat × Level) → List Symbol → Prop where
  /-- The outermost level. -/
  | top {level : Level} (whole : BranchesWhole level.finish) :
      Took level [] (Pattern.symbols level.finish)
  /-- A level inside others. -/
  | nested {level outer : Level} {enclosing : List (Nat × Level)} {front : List Symbol} (opening : Nat)
      (around : Took outer enclosing front) (whole : BranchesWhole level.finish) :
      Took level ((opening, outer) :: enclosing)
        (front ++ .openGroup :: Pattern.symbols level.finish)

/-- Where the innermost level goes on, so do the symbols. -/
theorem Took.goesOn {level next : Level} {enclosing : List (Nat × Level)} {more : List Symbol}
    (took : Took level enclosing symbols) (goesOn : level.GoesOn next more) :
    Took next enclosing (symbols ++ more) := by
  cases took with
  | top whole =>
      rw [← goesOn.written]
      exact .top (goesOn.whole whole)
  | nested opening around whole =>
      rw [List.append_assoc, List.cons_append, ← goesOn.written]
      exact .nested opening around (goesOn.whole whole)

/-- **A step** takes one more symbol. -/
theorem Took.step {reading next : Reading} {symbol : Symbol}
    (took : Took reading.current reading.enclosing symbols) (step : reading.step symbol = .ok next) :
    Took next.current next.enclosing (symbols ++ [symbol]) := by
  obtain ⟨offset, level, enclosing⟩ := reading
  cases symbol with
  | char c =>
      cases step
      have whole : (Item.char c).Whole := by
        rw [Item.Whole]
        trivial
      have goesOn := level.goesOn_push whole
      rw [Item.symbols] at goesOn
      exact took.goesOn goesOn
  | blank =>
      cases step
      have whole : Item.blank.Whole := by
        rw [Item.Whole]
        trivial
      have goesOn := level.goesOn_push whole
      rw [Item.symbols] at goesOn
      exact took.goesOn goesOn
  | openGroup =>
      cases step
      have fresh : BranchesWhole Level.fresh.finish :=
        branchesWhole_finish_iff.2 ⟨List.forall_mem_nil _, List.forall_mem_nil _⟩
      have nested := Took.nested offset took fresh
      rwa [show Pattern.symbols Level.fresh.finish = [] from rfl] at nested
  -- the level that is closed becomes an item of the one around it
  | closeGroup =>
      cases took with
      | top whole => cases step
      | @nested _ outer enclosing front opening around whole =>
          cases step
          have group : Item.Whole (.group level.finish) := by
            rw [Item.Whole]
            exact ⟨mt List.reverse_eq_nil_iff.1 (List.cons_ne_nil _ _), whole⟩
          have goesOn := outer.goesOn_push group
          rw [Item.symbols] at goesOn
          rw [List.append_assoc, List.cons_append]
          exact around.goesOn goesOn
  | bar =>
      cases step
      exact took.goesOn level.goesOn_nextBranch
  | star =>
      obtain ⟨branches, items⟩ := level
      cases items with
      | nil => cases step
      | cons operand items =>
          cases step
          exact took.goesOn (Level.goesOn_star branches operand items)

/-- **A run** takes its symbols. -/
theorem Took.run {reading last : Reading} {front : List Symbol}
    (took : Took reading.current reading.enclosing front)
    (run : symbols.foldlM Reading.step reading = .ok last) :
    Took last.current last.enclosing (front ++ symbols) := by
  induction symbols generalizing reading front with
  | nil =>
      obtain rfl := Except.ok.inj run
      rwa [List.append_nil]
  | cons symbol symbols ih =>
      obtain ⟨next, step, run⟩ := Except.bind_eq_ok_iff.1 run
      rw [← List.singleton_append, ← List.append_assoc]
      exact ih (took.step step) run

/-! ## (4) Parsing -/

/-- **Parsing finds the tree of some symbols**, if they have one. -/
theorem ofSymbols_eq_ok_iff : ofSymbols symbols = .ok tree ↔ TreeOf tree symbols := by
  constructor
  · intro parsed
    obtain ⟨⟨offset, level, enclosing⟩, run, finished⟩ := Except.bind_eq_ok_iff.1 parsed
    have fresh : Took Reading.start.current Reading.start.enclosing [] :=
      .top (branchesWhole_finish_iff.2 ⟨List.forall_mem_nil _, List.forall_mem_nil _⟩)
    have took := fresh.run run
    -- at the end no group is open, and the outermost level is the tree
    cases took with
    | nested opening around whole => cases finished
    | top whole =>
        cases finished
        exact ⟨mt List.reverse_eq_nil_iff.1 (List.cons_ne_nil _ _), whole, rfl⟩
  · exact TreeOf.ofSymbols_eq

/-- **Symbols have one tree** at most. -/
theorem TreeOf.unique {other : Pattern} (first : TreeOf tree symbols) (second : TreeOf other symbols) :
    tree = other :=
  Except.ok.inj (first.ofSymbols_eq.symm.trans second.ofSymbols_eq)

end Pattern

end Lexer
