import Lexer.Pattern.Basic

/-! # Nesting

A pattern may nest at most 250 constructs.  Every star, every group, the empty text (which is
written as a group), every alternation of at least two branches and every sequence of at least two
items counts as one.  The first construct too deep, outer before inner and left before right, is
found together with the characters that it spans in the extended form. -/

namespace Lexer

/-- **A span** of characters in the extended form of a pattern. -/
structure Span where
  /-- The number of characters in front of the span. -/
  start : Nat
  /-- The number of characters up to the end of the span. -/
  stop : Nat
  deriving DecidableEq, Repr

/-- The span of some symbols from a given start. -/
def Span.of (start : Nat) (symbols : List Symbol) : Span :=
  ⟨start, start + Pattern.width symbols⟩

/-- Enter a construct: it is too deep without room for it, else it leaves less room inside. -/
def Span.enter (span : Span) (room : Nat) (inside : Nat → Option Span) : Option Span :=
  match room with
  | 0 => some span
  | room + 1 => inside room

mutual

/-- The first construct of an item that there is no room for. -/
def Item.tooDeep (room start : Nat) : Item → Option Span
  | .char _ => none
  | .blank => (Span.of start (Item.symbols .blank)).enter room fun _ => none
  | .group branches =>
      (Span.of start (Item.symbols (.group branches))).enter room fun room =>
        if 2 ≤ branches.length then
          (Span.of (start + 1) (Pattern.symbols branches)).enter room fun room =>
            Pattern.branchesTooDeep room (start + 1) branches
        else Pattern.branchesTooDeep room (start + 1) branches
  | .star operand =>
      (Span.of start (Item.symbols (.star operand))).enter room fun room =>
        operand.tooDeep room start

/-- The first construct among the items of a sequence that there is no room for. -/
def Pattern.itemsTooDeep (room start : Nat) : List Item → Option Span
  | [] => none
  | item :: rest =>
      (item.tooDeep room start).or
        (Pattern.itemsTooDeep room (start + Pattern.width item.symbols) rest)

/-- The first construct among some branches that there is no room for. -/
def Pattern.branchesTooDeep (room start : Nat) : List (List Item) → Option Span
  | [] => none
  | branch :: rest =>
      (if 2 ≤ branch.length then
          (Span.of start (Pattern.sequenceSymbols branch)).enter room fun room =>
            Pattern.itemsTooDeep room start branch
        else Pattern.itemsTooDeep room start branch).or
        (Pattern.branchesTooDeep room
          (start + Pattern.width (Pattern.sequenceSymbols branch) + 1) rest)

end

namespace Pattern

/-- The greatest number of constructs around a character, the character's own not counted. -/
def nestingLimit : Nat := 250

/-- **The first construct of a pattern that is nested too deep.** -/
def tooDeep (pattern : Pattern) : Option Span :=
  if 2 ≤ pattern.length then
    (Span.of 0 (symbols pattern)).enter nestingLimit fun room => branchesTooDeep room 0 pattern
  else branchesTooDeep nestingLimit 0 pattern

end Pattern

end Lexer
