import Lexer.Proofs.Pattern.Depth
import Lexer.Proofs.Pattern.Trees
import Mathlib.Data.List.Count
import Mathlib.Data.List.Induction

/-! # Balanced groups and starred items

Whether some symbols have a tree can be seen without building it.  **Two conditions** decide it: the parentheses
are balanced, and in front of every star is a symbol that ends an item.  A reading keeps track of both, because
its levels count the groups that are open and its items tell what the last symbol was.  Where reading fails, the
first symbol that breaks a condition says why. -/

namespace Lexer

/-- **A symbol that ends an item**, so that a star may stand behind it: a character, the empty text, the end of
a group, or another star. -/
def Symbol.endsItem : Symbol → Bool
  | .char _ | .blank | .closeGroup | .star => true
  | .openGroup | .bar => false

namespace Pattern

variable {symbols : List Symbol} {symbol : Symbol} {reading next : Reading} {tree : Pattern}

/-! ## (1) The conditions -/

/-- **The parentheses are balanced.** -/
structure Balanced (symbols : List Symbol) : Prop where
  /-- No start of the symbols closes more groups than it opens. -/
  starts : ∀ front, front <+: symbols → front.count .closeGroup ≤ front.count .openGroup
  /-- All groups that are opened are closed. -/
  whole : symbols.count .closeGroup = symbols.count .openGroup

/-- Symbols of which the last one ends an item. -/
def EndInItem (symbols : List Symbol) : Prop :=
  ∃ last ∈ symbols.getLast?, last.endsItem = true

/-- **Every star has an operand** right in front of it. -/
def Starred (symbols : List Symbol) : Prop :=
  ∀ front back, symbols = front ++ .star :: back → EndInItem front

/-- **Readable symbols** break no condition so far; some groups may still be open. -/
structure Readable (symbols : List Symbol) : Prop where
  /-- No start of the symbols closes more groups than it opens. -/
  starts : ∀ front, front <+: symbols → front.count .closeGroup ≤ front.count .openGroup
  /-- Every star has an operand. -/
  starred : Starred symbols

/-- The last symbol decides whether an item ends. -/
theorem endInItem_concat_iff : EndInItem (symbols ++ [symbol]) ↔ symbol.endsItem = true := by
  rw [EndInItem, List.getLast?_concat]
  simp

/-- No symbol is readable. -/
theorem readable_nil : Readable [] := by
  constructor
  · intro front start
    rw [List.prefix_nil.1 start]
    exact Nat.le_refl _
  · intro front back split
    exact absurd split.symm (List.append_ne_nil_of_right_ne_nil _ (List.cons_ne_nil _ _))

/-- **One more symbol is readable** if it closes a group that is open, or is a star behind an item, or is any
other symbol. -/
theorem readable_concat_iff : Readable (symbols ++ [symbol]) ↔ Readable symbols ∧
    (symbol = .closeGroup → symbols.count .closeGroup < symbols.count .openGroup) ∧
    (symbol = .star → EndInItem symbols) := by
  constructor
  · rintro ⟨starts, starred⟩
    refine ⟨⟨fun front start => starts front (start.trans (List.prefix_append _ _)), ?_⟩, ?_, ?_⟩
    · rintro front back rfl
      exact starred front (back ++ [symbol]) (by rw [List.append_assoc, List.cons_append])
    · rintro rfl
      have counted := starts _ (List.prefix_refl _)
      rw [List.count_append, List.count_append, List.count_singleton_self,
        List.count_singleton] at counted
      exact counted
    · rintro rfl
      exact starred symbols [] rfl
  · rintro ⟨⟨starts, starred⟩, closes, stars⟩
    constructor
    · intro front start
      rcases List.prefix_concat_iff.1 start with rfl | start
      · have counted := starts _ (List.prefix_refl symbols)
        by_cases closing : symbol = .closeGroup
        · have less := closes closing
          subst closing
          rw [List.count_append, List.count_append, List.count_singleton_self,
            List.count_singleton]
          exact less
        · rw [List.count_append, List.count_append, List.count_singleton, if_neg (by simpa using closing)]
          exact Nat.le_trans counted (Nat.le_add_right _ _)
      · exact starts front start
    · intro front back split
      rcases List.eq_nil_or_concat back with rfl | ⟨back, last, rfl⟩
      · obtain ⟨rfl, same⟩ := List.append_inj' split rfl
        exact stars (List.head_eq_of_cons_eq same)
      · rw [List.concat_eq_append, ← List.cons_append, ← List.append_assoc] at split
        obtain ⟨rfl, -⟩ := List.append_inj' split rfl
        exact starred front back rfl

/-! ## (2) Readings -/

/-- **A reading keeps track** of the symbols that it took. -/
structure Tracks (symbols : List Symbol) (reading : Reading) : Prop where
  /-- The levels that enclose the current one are the groups that are open. -/
  groups : symbols.count .openGroup = reading.enclosing.length + symbols.count .closeGroup
  /-- There is an item to take a star exactly if the last symbol ended one. -/
  items : reading.current.items ≠ [] ↔ EndInItem symbols

/-- A reading keeps track of the start. -/
theorem tracks_start : Tracks [] Reading.start :=
  ⟨rfl, iff_of_false (fun some => some rfl) fun ⟨_, member, _⟩ => nomatch member⟩

/-- **A step keeps track** of its symbol. -/
theorem Tracks.step (tracks : Tracks symbols reading) (step : reading.step symbol = .ok next) :
    Tracks (symbols ++ [symbol]) next := by
  obtain ⟨groups, -⟩ := tracks
  obtain ⟨offset, level, enclosing⟩ := reading
  have counted : ∀ paren, (symbols ++ [symbol]).count paren =
      symbols.count paren + if symbol == paren then 1 else 0 := by
    intro paren
    rw [List.count_append, List.count_singleton]
  -- what is left after each symbol is a computation
  cases symbol with
  | char c | blank | bar =>
      cases step
      refine ⟨?_, ?_⟩
      · rw [counted, counted]
        exact groups
      · rw [endInItem_concat_iff]
        simp [Level.push, Level.nextBranch, Symbol.endsItem]
  | openGroup =>
      cases step
      refine ⟨?_, ?_⟩
      · rw [counted, counted, groups]
        exact Nat.add_right_comm _ _ _
      · rw [endInItem_concat_iff]
        simp [Level.fresh, Symbol.endsItem]
  | closeGroup =>
      cases enclosing with
      | nil => cases step
      | cons around enclosing =>
          cases step
          refine ⟨?_, ?_⟩
          · rw [counted, counted, groups]
            exact Nat.add_right_comm enclosing.length 1 _
          · rw [endInItem_concat_iff]
            simp [Level.push, Symbol.endsItem]
  | star =>
      obtain ⟨branches, items⟩ := level
      cases items with
      | nil => cases step
      | cons operand items =>
          cases step
          refine ⟨?_, ?_⟩
          · rw [counted, counted]
            exact groups
          · rw [endInItem_concat_iff]
            simp [Symbol.endsItem]

/-- **A step is taken** where the symbol is readable, and its fault says why it is not. -/
theorem Tracks.step_cases (tracks : Tracks symbols reading) (symbol : Symbol) :
    (∃ next, reading.step symbol = .ok next) ∧
      (symbol = .closeGroup → symbols.count .closeGroup < symbols.count .openGroup) ∧
      (symbol = .star → EndInItem symbols) ∨
    (∃ span, reading.step symbol = .error ⟨.unopenedGroup, span⟩) ∧ symbol = .closeGroup ∧
      symbols.count .closeGroup = symbols.count .openGroup ∨
    (∃ span, reading.step symbol = .error ⟨.missingOperand, span⟩) ∧ symbol = .star ∧
      ¬ EndInItem symbols := by
  obtain ⟨groups, ends⟩ := tracks
  obtain ⟨offset, level, enclosing⟩ := reading
  cases symbol with
  | char c | blank | bar | openGroup => exact .inl ⟨⟨_, rfl⟩, nofun, nofun⟩
  | closeGroup =>
      cases enclosing with
      | nil => exact .inr (.inl ⟨⟨_, rfl⟩, rfl, by rw [groups, List.length_nil, Nat.zero_add]⟩)
      | cons around enclosing =>
          refine .inl ⟨⟨_, rfl⟩, fun _ => ?_, nofun⟩
          rw [groups, List.length_cons]
          omega
  | star =>
      obtain ⟨branches, items⟩ := level
      cases items with
      | nil => exact .inr (.inr ⟨⟨_, rfl⟩, rfl, fun item => ends.2 item rfl⟩)
      | cons operand items =>
          exact .inl ⟨⟨_, rfl⟩, nofun, fun _ => ends.1 (List.cons_ne_nil _ _)⟩

/-- A reading takes one more symbol behind others. -/
theorem foldlM_concat (symbols : List Symbol) (symbol : Symbol) :
    (symbols ++ [symbol]).foldlM Reading.step Reading.start =
      symbols.foldlM Reading.step Reading.start >>= fun reading => reading.step symbol := by
  rw [List.foldlM_append]
  refine congrArg _ (funext fun reading => ?_)
  rw [List.foldlM_cons]
  cases reading.step symbol with
  | error fault => rfl
  | ok next => rfl

/-! ## (3) Symbols that are not readable -/

/-- **The first symbol that is not readable**, behind symbols that are, says what is wrong. -/
inductive Broken (symbols : List Symbol) : Cause → Prop where
  /-- A star has no operand. -/
  | missingOperand {front back : List Symbol} (split : symbols = front ++ .star :: back)
      (readable : Readable front) (without : ¬ EndInItem front) : Broken symbols .missingOperand
  /-- A closing parenthesis stands where no group is open. -/
  | unopenedGroup {front back : List Symbol} (split : symbols = front ++ .closeGroup :: back)
      (readable : Readable front)
      (closed : front.count .closeGroup = front.count .openGroup) : Broken symbols .unopenedGroup

/-- What is wrong with some symbols stays wrong behind one more. -/
theorem Broken.concat {cause : Cause} (broken : Broken symbols cause) (symbol : Symbol) :
    Broken (symbols ++ [symbol]) cause := by
  cases broken with
  | @missingOperand front back split readable without =>
      have longer : symbols ++ [symbol] = front ++ .star :: (back ++ [symbol]) := by
        rw [split, List.append_assoc, List.cons_append]
      exact .missingOperand longer readable without
  | @unopenedGroup front back split readable closed =>
      have longer : symbols ++ [symbol] = front ++ .closeGroup :: (back ++ [symbol]) := by
        rw [split, List.append_assoc, List.cons_append]
      exact .unopenedGroup longer readable closed

/-- **Reading succeeds on readable symbols** and keeps track of them; on others it fails for what is wrong. -/
theorem foldlM_cases (symbols : List Symbol) :
    (∃ reading, symbols.foldlM Reading.step Reading.start = .ok reading ∧ Readable symbols ∧
      Tracks symbols reading) ∨
    ∃ cause span, symbols.foldlM Reading.step Reading.start = .error ⟨cause, span⟩ ∧
      ¬ Readable symbols ∧ Broken symbols cause := by
  induction symbols using List.reverseRecOn with
  | nil => exact .inl ⟨_, rfl, readable_nil, tracks_start⟩
  | append_singleton symbols symbol ih =>
      rw [foldlM_concat]
      rcases ih with ⟨reading, run, readable, tracks⟩ | ⟨cause, span, run, unreadable, broken⟩
      · rw [run]
        change (∃ last, reading.step symbol = .ok last ∧ _) ∨
          ∃ cause span, reading.step symbol = .error ⟨cause, span⟩ ∧ _
        rcases tracks.step_cases symbol with
          ⟨⟨next, step⟩, more⟩ | ⟨⟨span, step⟩, rfl, closed⟩ | ⟨⟨span, step⟩, rfl, without⟩
        · exact .inl ⟨next, step, readable_concat_iff.2 ⟨readable, more⟩, tracks.step step⟩
        · refine .inr ⟨_, span, step, fun more => ?_, .unopenedGroup rfl readable closed⟩
          exact absurd closed (Nat.ne_of_lt ((readable_concat_iff.1 more).2.1 rfl))
        · refine .inr ⟨_, span, step, fun more => ?_, .missingOperand rfl readable without⟩
          exact without ((readable_concat_iff.1 more).2.2 rfl)
      · refine .inr ⟨cause, span, ?_, fun more => ?_, broken.concat symbol⟩
        · rw [run]
          rfl
        · exact unreadable (readable_concat_iff.1 more).1

/-- Readable symbols are read, and the reading keeps track of them. -/
theorem Readable.exists_foldlM (readable : Readable symbols) :
    ∃ reading, symbols.foldlM Reading.step Reading.start = .ok reading ∧ Tracks symbols reading := by
  rcases foldlM_cases symbols with ⟨reading, run, -, tracks⟩ | ⟨_, _, -, unreadable, -⟩
  · exact ⟨reading, run, tracks⟩
  · exact absurd readable unreadable

/-- Reading ends where a step fails, whatever stands behind. -/
theorem foldlM_of_step_error {front back : List Symbol} {fault : Fault}
    (run : front.foldlM Reading.step Reading.start = .ok reading)
    (step : reading.step symbol = .error fault) :
    (front ++ symbol :: back).foldlM Reading.step Reading.start = .error fault := by
  rw [List.foldlM_append, run]
  change reading.step symbol >>= _ = _
  rw [step]
  rfl

/-- **Reading fails** for what is wrong. -/
theorem Broken.exists_foldlM {cause : Cause} (broken : Broken symbols cause) :
    ∃ span, symbols.foldlM Reading.step Reading.start = .error ⟨cause, span⟩ := by
  cases broken with
  | missingOperand split readable without =>
      obtain ⟨reading, run, tracks⟩ := readable.exists_foldlM
      rcases tracks.step_cases .star with ⟨-, -, ends⟩ | ⟨-, other, -⟩ | ⟨⟨span, step⟩, -⟩
      · exact absurd (ends rfl) without
      · cases other
      · exact ⟨span, split ▸ foldlM_of_step_error run step⟩
  | unopenedGroup split readable closed =>
      obtain ⟨reading, run, tracks⟩ := readable.exists_foldlM
      rcases tracks.step_cases .closeGroup with ⟨-, free, -⟩ | ⟨⟨span, step⟩, -⟩ | ⟨-, other, -⟩
      · exact absurd closed (Nat.ne_of_lt (free rfl))
      · exact ⟨span, split ▸ foldlM_of_step_error run step⟩
      · cases other

/-! ## (4) Symbols that have a tree -/

/-- Symbols are balanced and starred if they are readable and leave no group open. -/
theorem balanced_and_starred_iff : Balanced symbols ∧ Starred symbols ↔
    Readable symbols ∧ symbols.count .closeGroup = symbols.count .openGroup :=
  ⟨fun ⟨balanced, starred⟩ => ⟨⟨balanced.starts, starred⟩, balanced.whole⟩,
    fun ⟨readable, whole⟩ => ⟨⟨readable.starts, whole⟩, readable.starred⟩⟩

/-- **Symbols have a tree** exactly if their parentheses are balanced and every star has an operand. -/
theorem exists_treeOf_iff : (∃ tree, TreeOf tree symbols) ↔ Balanced symbols ∧ Starred symbols := by
  rw [balanced_and_starred_iff]
  constructor
  · rintro ⟨tree, treeOf⟩
    obtain ⟨reading, run, finished⟩ := Except.bind_eq_ok_iff.1 (ofSymbols_eq_ok_iff.2 treeOf)
    rcases foldlM_cases symbols with ⟨reading', run', readable, tracks⟩ | ⟨_, _, run', -⟩
    · obtain rfl := Except.ok.inj (run.symm.trans run')
      obtain ⟨offset, level, enclosing⟩ := reading
      cases enclosing with
      | cons around enclosing => cases finished
      | nil => exact ⟨readable, by rw [tracks.groups, List.length_nil, Nat.zero_add]⟩
    · cases run.symm.trans run'
  · rintro ⟨readable, whole⟩
    obtain ⟨⟨offset, level, enclosing⟩, run, tracks⟩ := readable.exists_foldlM
    have closed : enclosing = [] := by
      have counted := tracks.groups
      exact List.eq_nil_of_length_eq_zero (by dsimp only at counted; omega)
    subst closed
    exact ⟨level.finish, ofSymbols_eq_ok_iff.1 (Except.bind_eq_ok_iff.2 ⟨_, run, rfl⟩)⟩

/-- **What is wrong with symbols** that are not accepted. -/
inductive Defect (symbols : List Symbol) : Cause → Prop where
  /-- A symbol is not readable. -/
  | broken {cause : Cause} (broken : Broken symbols cause) : Defect symbols cause
  /-- A group is open at the end. -/
  | unclosedGroup (readable : Readable symbols)
      (opened : symbols.count .closeGroup < symbols.count .openGroup) : Defect symbols .unclosedGroup
  /-- The tree is deeper than the nesting limit. -/
  | nestedTooDeep {tree : Pattern} (treeOf : TreeOf tree symbols) (deep : nestingLimit < tree.depth) :
      Defect symbols .nestedTooDeep

end Pattern

end Lexer
