import Lexer.Text.Basic

/-! # Patterns

The dialect of regular expressions that specifications use.  It knows alternation, the Kleene star,
grouping and a sign for the empty text; every other character stands for itself.

**Symbols.**  The characters of a pattern are grouped into symbols first: a backslash takes the
character after it along, `\n`, `\t` and `\_` name a line feed, a tab and a space, and a backslash
at the very end stands for itself.

**Trees.**  A pattern is a list of branches, a branch is a list of items, and an item is a
character, the empty text, a group around a pattern, or an item under a star.  Writing a tree down
gives back its symbols, so the position of every part of a tree can be computed from the widths of
the parts in front of it. -/

namespace Lexer

/-! ## (1) Symbols -/

/-- **The symbols** of the dialect. -/
inductive Symbol where
  /-- A character that stands for itself. -/
  | char (c : Char)
  /-- The empty text. -/
  | blank
  /-- The opening parenthesis of a group. -/
  | openGroup
  /-- The closing parenthesis of a group. -/
  | closeGroup
  /-- The bar between two branches. -/
  | bar
  /-- The star behind an item. -/
  | star
  deriving DecidableEq, Repr

namespace Symbol

/-- The character that a backslash and a character stand for. -/
def escaped (c : Char) : Char :=
  if c = 'n' then '\n'
  else if c = 't' then '\t'
  else if c = '_' then ' '
  else c

/-- The symbol of a character without a backslash. -/
def plain (c : Char) : Symbol :=
  if c = '$' then .blank
  else if c = '(' then .openGroup
  else if c = ')' then .closeGroup
  else if c = '|' then .bar
  else if c = '*' then .star
  else .char c

/-- **The symbols of a text.** -/
def scan : Text → List Symbol
  | [] => []
  | ['\\'] => [.char '\\']
  | '\\' :: c :: rest => .char (escaped c) :: scan rest
  | c :: rest => plain c :: scan rest

/-- Characters with a meaning of their own in extended regular expressions. -/
def isSpecial (c : Char) : Bool :=
  c ∈ ['\\', '.', '+', '*', '?', '(', ')', '|', '[', ']', '{', '}', '^', '$', '#', '&', '-', '~']

/-- **The extended form** of a symbol, which messages about a pattern show: special characters get
a backslash, and the empty text is an empty group that captures nothing. -/
def extended : Symbol → Text
  | .char c => if isSpecial c then ['\\', c] else [c]
  | .blank => ['(', '?', ':', ')']
  | .openGroup => ['(']
  | .closeGroup => [')']
  | .bar => ['|']
  | .star => ['*']

/-- The number of characters in the extended form. -/
def width (symbol : Symbol) : Nat :=
  symbol.extended.length

end Symbol

/-! ## (2) Trees -/

/-- **Items** of a pattern. -/
inductive Item where
  /-- A character. -/
  | char (c : Char)
  /-- The empty text. -/
  | blank
  /-- A group around the branches of a pattern. -/
  | group (branches : List (List Item))
  /-- An item, any number of times. -/
  | star (operand : Item)
  deriving Repr

/-- **A pattern** is the list of its branches, each a list of items. -/
abbrev Pattern := List (List Item)

mutual

/-- The symbols of an item. -/
def Item.symbols : Item → List Symbol
  | .char c => [.char c]
  | .blank => [.blank]
  | .group branches => .openGroup :: (Pattern.symbols branches ++ [.closeGroup])
  | .star operand => operand.symbols ++ [.star]

/-- The symbols of a sequence of items. -/
def Pattern.sequenceSymbols : List Item → List Symbol
  | [] => []
  | item :: rest => item.symbols ++ Pattern.sequenceSymbols rest

/-- The symbols of some branches, with a bar between any two. -/
def Pattern.symbols : List (List Item) → List Symbol
  | [] => []
  | [branch] => Pattern.sequenceSymbols branch
  | branch :: rest => Pattern.sequenceSymbols branch ++ .bar :: Pattern.symbols rest

end

namespace Pattern

/-- The number of characters that symbols take in the extended form. -/
def width : List Symbol → Nat
  | [] => 0
  | symbol :: rest => symbol.width + width rest

/-- The extended form of some symbols. -/
def extended (symbols : List Symbol) : Text :=
  symbols.flatMap Symbol.extended

end Pattern

end Lexer
