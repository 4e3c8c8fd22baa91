import Lexer.Pattern.Basic

/-! # Reading the extended form

The extended form of a pattern is a text of a larger language, which knows far more than the dialect: any
character, anchors, classes, counts, flags, lazy stars, and letters with a meaning behind a backslash.
**Reading it as such** finds the symbols that were written and none of these.  Special characters are written
behind a backslash, and nothing that is written starts with a question mark, which could change the meaning of
the parenthesis or the star in front of it. -/

namespace Lexer

namespace Pattern

/-- **Constructs** of extended regular expressions. -/
inductive Construct where
  /-- What the dialect knows as well. -/
  | symbol (symbol : Symbol)
  /-- A dot: any character. -/
  | anyCharacter
  /-- A circumflex: the start of the input. -/
  | startAnchor
  /-- A dollar sign: the end of the input. -/
  | endAnchor
  /-- A plus sign: at least one repetition. -/
  | oneOrMore
  /-- A question mark: at most one repetition. -/
  | atMostOne
  /-- A brace: a number of repetitions. -/
  | count
  /-- A bracket: a class of characters. -/
  | charClass
  /-- A star with a question mark: as few repetitions as possible. -/
  | lazyStar
  /-- A parenthesis with a question mark that is no empty text: a name, flags, or a group that captures
  nothing. -/
  | markedGroup
  /-- A backslash in front of a character that is not special: a class, a code, an anchor or a fault. -/
  | otherEscape
  /-- A backslash with nothing behind it. -/
  | cutEscape
  deriving DecidableEq, Repr

namespace Construct

/-- The construct of a character alone. -/
def single (c : Char) : Construct :=
  if c = '(' then .symbol .openGroup
  else if c = ')' then .symbol .closeGroup
  else if c = '|' then .symbol .bar
  else if c = '*' then .symbol .star
  else if c = '.' then .anyCharacter
  else if c = '^' then .startAnchor
  else if c = '$' then .endAnchor
  else if c = '+' then .oneOrMore
  else if c = '?' then .atMostOne
  else if c = '{' then .count
  else if c = '[' then .charClass
  else if c = '\\' then .cutEscape
  else .symbol (.char c)

/-- **The constructs of a text.**  Behind one that the dialect does not know, the rest may be read otherwise. -/
def read : Text → List Construct
  | [] => []
  | '\\' :: c :: rest =>
      (if Symbol.isSpecial c then .symbol (.char c) else .otherEscape) :: read rest
  | '(' :: '?' :: ':' :: ')' :: rest => .symbol .blank :: read rest
  | '(' :: '?' :: rest => .markedGroup :: read rest
  | '*' :: '?' :: rest => .lazyStar :: read rest
  | c :: rest => single c :: read rest

/-- A character alone is read by itself, if no question mark changes what it means. -/
theorem read_cons {c : Char} {rest : Text} (noEscape : c ≠ '\\')
    (unmarked : c = '(' ∨ c = '*' → rest.head? ≠ some '?') :
    read (c :: rest) = single c :: read rest := by
  rw [read]
  · intro d after same
    exact absurd same noEscape
  · rintro after rfl rfl
    exact absurd rfl (unmarked (.inl rfl))
  · rintro after rfl rfl
    exact absurd rfl (unmarked (.inl rfl))
  · rintro after rfl rfl
    exact absurd rfl (unmarked (.inr rfl))

end Construct

/-- No symbol is written with a question mark in front. -/
theorem head?_extended_ne (symbols : List Symbol) : (extended symbols).head? ≠ some '?' := by
  cases symbols with
  | nil => exact nofun
  | cons symbol symbols =>
      rw [extended, List.flatMap_cons]
      cases symbol with
      | char c =>
          rw [Symbol.extended]
          split
          · simp
          · next plain =>
              rintro same
              obtain rfl : c = '?' := Option.some.inj same
              exact plain (by decide)
      | blank | openGroup | closeGroup | bar | star => simp [Symbol.extended]

/-- A character that is not special is read as itself. -/
theorem Construct.single_of_plain {c : Char} (plain : ¬ Symbol.isSpecial c = true) :
    single c = .symbol (.char c) := by
  simp only [Symbol.isSpecial, decide_eq_true_iff, List.mem_cons, List.not_mem_nil, or_false, not_or] at plain
  simp [single, plain]

/-- **The extended form is read as its symbols**, and as nothing else. -/
theorem read_extended (symbols : List Symbol) :
    Construct.read (extended symbols) = symbols.map .symbol := by
  induction symbols with
  | nil => rfl
  | cons symbol symbols ih =>
      have unmarked := head?_extended_ne symbols
      rw [extended] at unmarked ih
      rw [extended, List.flatMap_cons, List.map_cons, ← ih]
      cases symbol with
      | char c =>
          rw [Symbol.extended]
          split
          · next special =>
              rw [List.cons_append, List.singleton_append, Construct.read, if_pos special]
          · next plain =>
              rw [List.singleton_append, Construct.read_cons, Construct.single_of_plain plain]
              · rintro rfl
                exact plain (by decide)
              · exact fun _ => unmarked
      | blank => rfl
      | openGroup => exact Construct.read_cons (by decide) fun _ => unmarked
      | closeGroup => exact Construct.read_cons (by decide) fun _ => unmarked
      | bar => exact Construct.read_cons (by decide) fun _ => unmarked
      | star => exact Construct.read_cons (by decide) fun _ => unmarked

/-- A question mark behind a parenthesis or a star is written as a character. -/
example : extended (Symbol.scan "(?:a)*?^\\".toList) = "(\\?:a)*\\?\\^\\\\".toList := by decide

end Pattern

end Lexer
