import Lexer.Pattern.Nesting

/-! # Parsing patterns

Symbols are taken one at a time from left to right.  **Levels**: the top level and every group that
is still open keep the branches and the items read so far.  A bar finishes a branch, a closing
parenthesis finishes a level and makes it an item of the level around it, and a star takes the last
item of its branch.  What can go wrong is a star without an item, a closing parenthesis without a
group, a group without an end, and a construct that is nested too deep. -/

namespace Lexer.Pattern

/-- **Causes** why a pattern is malformed. -/
inductive Cause where
  /-- A star has no item in front of it. -/
  | missingOperand
  /-- A closing parenthesis closes no group. -/
  | unopenedGroup
  /-- A group is never closed. -/
  | unclosedGroup
  /-- A construct is nested too deep. -/
  | nestedTooDeep
  deriving DecidableEq, Repr

/-- **A fault** of a pattern: its cause, and the span it is found at. -/
structure Fault where
  /-- What is wrong. -/
  cause : Cause
  /-- Where it is wrong, in the extended form of the pattern. -/
  span : Span
  deriving DecidableEq, Repr

/-- **A level** of a pattern that is being read. -/
structure Level where
  /-- The finished branches, the last one first. -/
  branches : List (List Item)
  /-- The items of the current branch, the last one first. -/
  items : List Item

namespace Level

/-- A level of which nothing was read. -/
def fresh : Level :=
  ⟨[], []⟩

/-- Add an item to the current branch. -/
def push (level : Level) (item : Item) : Level :=
  { level with items := item :: level.items }

/-- Finish the current branch and start the next one. -/
def nextBranch (level : Level) : Level :=
  ⟨level.items.reverse :: level.branches, []⟩

/-- All branches of a level, the current one last. -/
def finish (level : Level) : Pattern :=
  (level.items.reverse :: level.branches).reverse

end Level

/-- **The state of reading** a pattern. -/
structure Reading where
  /-- The number of characters of the extended form that were read. -/
  offset : Nat
  /-- The innermost level. -/
  current : Level
  /-- The levels around it, each with the offset of the parenthesis that opened the level inside,
  innermost first. -/
  enclosing : List (Nat × Level)

namespace Reading

/-- Nothing was read. -/
def start : Reading :=
  ⟨0, .fresh, []⟩

/-- **Take one symbol.** -/
def step (reading : Reading) (symbol : Symbol) : Except Fault Reading :=
  let offset := reading.offset + symbol.width
  match symbol with
  | .char c => .ok { reading with offset, current := reading.current.push (.char c) }
  | .blank => .ok { reading with offset, current := reading.current.push .blank }
  | .openGroup =>
      .ok ⟨offset, .fresh, (reading.offset, reading.current) :: reading.enclosing⟩
  | .closeGroup =>
      match reading.enclosing with
      | [] => .error ⟨.unopenedGroup, ⟨reading.offset, offset⟩⟩
      | (_, outer) :: enclosing =>
          .ok ⟨offset, outer.push (.group reading.current.finish), enclosing⟩
  | .bar => .ok { reading with offset, current := reading.current.nextBranch }
  | .star =>
      match reading.current.items with
      | [] => .error ⟨.missingOperand, ⟨reading.offset, reading.offset⟩⟩
      | operand :: items =>
          .ok { reading with
            offset, current := { reading.current with items := .star operand :: items } }

/-- The end of the symbols: no group may be open. -/
def finish (reading : Reading) : Except Fault Pattern :=
  match reading.enclosing with
  | [] => .ok reading.current.finish
  | (opening, _) :: _ => .error ⟨.unclosedGroup, ⟨opening, opening + 1⟩⟩

end Reading

/-- **The tree of some symbols**, of any depth. -/
def ofSymbols (symbols : List Symbol) : Except Fault Pattern :=
  symbols.foldlM Reading.step Reading.start >>= Reading.finish

/-- **The tree of a pattern**, within the nesting limit. -/
def parse (text : Text) : Except Fault Pattern := do
  let pattern ← ofSymbols (Symbol.scan text)
  match tooDeep pattern with
  | none => .ok pattern
  | some span => .error ⟨.nestedTooDeep, span⟩

end Lexer.Pattern
