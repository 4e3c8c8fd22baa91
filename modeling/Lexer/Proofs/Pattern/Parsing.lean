import Lexer.Pattern.Parser
import Lexer.Proofs.Pattern.Dialect
import Lexer.Proofs.Pattern.Language
import Mathlib.Algebra.BigOperators.Group.List.Basic

/-! # Parsing and the dialect

Parsing is evaluation with trees in place of languages.  **The stack** of a reading keeps, of every
level, the languages of its branches and items; taking a symbol on the reading is taking its token on the
stack.  So the symbols that have a tree are those in the grammar, and the language of the tree is the one
that the grammar gives.  Scanning a text is reading its tokens without references. -/

namespace Lexer

open Computability Dialect

/-! ## (1) Scanning -/

/-- The token of a symbol. -/
def Symbol.token : Symbol → Token
  | .char c => .char c
  | .blank => .atom 1
  | .openGroup => .openGroup
  | .closeGroup => .closeGroup
  | .bar => .bar
  | .star => .star

/-- A character that neither ends a text as a backslash nor escapes another one is no backslash. -/
theorem Symbol.ne_backslash {c : Char} {rest : Text} (notLast : c = '\\' → rest = [] → False)
    (notEscape : ∀ d after, c = '\\' → rest = d :: after → False) : c ≠ '\\' := by
  intro same
  cases rest with
  | nil => exact notLast same rfl
  | cons d rest => exact notEscape d rest same rfl

/-- A character that is no backslash is a symbol by itself. -/
theorem Symbol.scan_cons {c : Char} (noBackslash : c ≠ '\\') (rest : Text) :
    scan (c :: rest) = plain c :: scan rest := by
  rw [scan]
  · rintro rfl
    exact absurd rfl noBackslash
  · rintro d after rfl
    exact absurd rfl noBackslash

variable {meaning : Option (Text → Language Char)} {rest : Text} {tokens : List Token}

/-- A character that is not escaped has the token that the dialect reads. -/
theorem Symbol.reads_plain {c : Char} (noBackslash : c ≠ '\\') (noReference : c = '{' → meaning = none)
    (reads : Reads meaning rest tokens) : Reads meaning (c :: rest) ((plain c).token :: tokens) := by
  -- the characters that have a meaning of their own come first, in the order of the scanner
  rw [plain]
  split
  · next same =>
      subst same
      exact .blank reads
  split
  · next same =>
      subst same
      exact .openGroup reads
  split
  · next same =>
      subst same
      exact .closeGroup reads
  split
  · next same =>
      subst same
      exact .bar reads
  split
  · next same =>
      subst same
      exact .star reads
  · refine .char ?_ noReference reads
    simp_all

/-- An escaped character has the token that the dialect reads. -/
theorem Symbol.reads_escaped (c : Char) (reads : Reads meaning rest tokens) :
    Reads meaning ('\\' :: c :: rest) ((char (escaped c)).token :: tokens) := by
  rw [escaped]
  split
  · next same =>
      subst same
      exact .lineFeed reads
  split
  · next same =>
      subst same
      exact .tab reads
  split
  · next same =>
      subst same
      exact .space reads
  · refine .escaped ?_ reads
    simp_all

/-- **Scanning** reads the tokens of a text. -/
theorem Symbol.reads_scan (text : Text) : Reads none text ((scan text).map token) := by
  induction text using scan.induct with
  | case1 => exact .nil
  | case2 => exact .backslash
  | case3 c rest ih =>
      rw [scan, List.map_cons]
      exact reads_escaped c ih
  | case4 c rest notLast notEscape ih =>
      have noBackslash := ne_backslash notLast notEscape
      rw [scan_cons noBackslash, List.map_cons]
      exact reads_plain noBackslash (fun _ => rfl) ih

namespace Pattern

/-! ## (2) Readings and stacks -/

/-- The language of a pattern does not depend on the order of its branches. -/
theorem language_reverse (branches : List (List Item)) :
    Pattern.language branches.reverse = Pattern.language branches := by
  rw [Pattern.language_eq, Pattern.language_eq]
  exact ((List.reverse_perm branches).map _).sum_eq

/-- The frame of a level: the words of its branches, and the words of its items. -/
def Level.frame (level : Level) : Frame :=
  ⟨Pattern.language level.branches, level.items.map Item.language⟩

/-- A finished level has the words of its frame. -/
theorem Level.language_finish (level : Level) :
    Pattern.language level.finish = level.frame.value := by
  rw [Level.finish, language_reverse, Pattern.language, sequenceLanguage_eq, add_comm,
    List.map_reverse]
  rfl

/-- The next branch starts behind the words of the level. -/
theorem Level.frame_nextBranch (level : Level) :
    level.nextBranch.frame = ⟨level.frame.value, []⟩ := by
  rw [← language_finish, Level.finish, language_reverse]
  rfl

/-- An item adds its words. -/
theorem Level.frame_push (level : Level) (item : Item) :
    (level.push item).frame = level.frame.push item.language :=
  rfl

/-- **The stack of a reading.** -/
def Reading.stack (reading : Reading) : Stack :=
  ⟨reading.current.frame, reading.enclosing.map fun around => around.2.frame⟩

/-- Nothing was read on either side. -/
theorem Reading.stack_start : Reading.start.stack = Stack.start := by
  rw [Reading.stack, Reading.start, Level.frame, Level.fresh, Pattern.language]
  rfl

/-- **A symbol** is taken on the reading as its token on the stack. -/
theorem Reading.stack_step (reading : Reading) (symbol : Symbol) :
    (reading.step symbol).toOption.map Reading.stack = reading.stack.step symbol.token := by
  obtain ⟨offset, ⟨branches, items⟩, enclosing⟩ := reading
  -- branches and items are kept in reverse on both sides, so each case is a computation
  cases symbol with
  | char c =>
      simp only [Reading.step, Except.toOption, Option.map_some, Reading.stack, Level.frame_push,
        Item.language]
      rfl
  | blank =>
      simp only [Reading.step, Except.toOption, Option.map_some, Reading.stack, Level.frame_push,
        Item.language]
      rfl
  | openGroup =>
      simp only [Reading.step, Except.toOption, Option.map_some, Reading.stack, Level.frame,
        Level.fresh, Pattern.language]
      rfl
  | closeGroup =>
      cases enclosing with
      | nil => rfl
      | cons around enclosing =>
          simp only [Reading.step, Reading.stack, Except.toOption, Option.map_some,
            Level.frame_push, Item.language, Level.language_finish, Symbol.token, List.map_cons,
            Stack.step]
  | bar =>
      simp only [Reading.step, Except.toOption, Option.map_some, Reading.stack,
        Level.frame_nextBranch]
      rfl
  | star =>
      cases items with
      | nil => rfl
      | cons operand items =>
          simp only [Reading.step, Except.toOption, Option.map_some, Reading.stack, Level.frame,
            List.map_cons, Item.language]
          rfl

/-- **Symbols** are taken on the reading as their tokens on the stack. -/
theorem Reading.stack_foldlM (reading : Reading) (symbols : List Symbol) :
    (symbols.foldlM Reading.step reading).toOption.map Reading.stack =
      reading.stack.run (symbols.map Symbol.token) := by
  induction symbols generalizing reading with
  | nil => rfl
  | cons symbol symbols ih =>
      rw [List.foldlM_cons, List.map_cons, Stack.run_cons, ← stack_step]
      cases reading.step symbol with
      | error fault => rfl
      | ok next => exact ih next

/-- The end is reached on the reading as on the stack. -/
theorem Reading.language_finish (reading : Reading) :
    reading.finish.toOption.map Pattern.language = reading.stack.finish := by
  obtain ⟨offset, current, enclosing⟩ := reading
  cases enclosing with
  | nil =>
      rw [Reading.finish, Except.toOption, Option.map_some, Level.language_finish]
      rfl
  | cons around enclosing => rfl

/-- **Parsing is evaluation**: symbols have a tree exactly if their tokens have a value, which is the
language of the tree. -/
theorem language_ofSymbols (symbols : List Symbol) :
    (ofSymbols symbols).toOption.map Pattern.language = evaluate (symbols.map Symbol.token) := by
  rw [ofSymbols, evaluate, ← Reading.stack_start, ← Reading.stack_foldlM]
  cases symbols.foldlM Reading.step Reading.start with
  | error fault => rfl
  | ok reading => exact reading.language_finish

/-! ## (3) Patterns of the dialect -/

/-- **A text has a tree of some language** exactly if the dialect gives it that language. -/
theorem exists_ofSymbols_iff {text : Text} {words : Language Char} :
    (∃ tree, ofSymbols (Symbol.scan text) = .ok tree ∧ Pattern.language tree = words) ↔
      Denotes none text words := by
  have parsed := language_ofSymbols (Symbol.scan text)
  constructor
  · rintro ⟨tree, read, rfl⟩
    rw [read, Except.toOption, Option.map_some, eq_comm, evaluate_eq_some_iff] at parsed
    exact ⟨_, Symbol.reads_scan text, parsed⟩
  · rintro ⟨tokens, reads, isPattern⟩
    -- the tokens of the dialect are those of the scanner, as a text has one reading
    obtain rfl := reads.unique (Symbol.reads_scan text)
    rw [evaluate_eq_some_iff.2 isPattern, Option.map_eq_some_iff] at parsed
    obtain ⟨tree, read, language⟩ := parsed
    cases result : ofSymbols (Symbol.scan text) with
    | error fault =>
        rw [result] at read
        exact nomatch read
    | ok found =>
        rw [result] at read
        obtain rfl := Option.some.inj read
        exact ⟨found, rfl, language⟩

/-- A pattern that is accepted is the tree of its symbols, and is not nested too deep. -/
theorem parse_eq_ok_iff {text : Text} {tree : Pattern} :
    parse text = .ok tree ↔ ofSymbols (Symbol.scan text) = .ok tree ∧ tooDeep tree = none := by
  rw [parse]
  cases ofSymbols (Symbol.scan text) with
  | error fault => exact ⟨nofun, nofun⟩
  | ok found =>
      rw [Except.ok.injEq]
      simp only [bind, Except.bind]
      split
      · next shallow =>
          rw [Except.ok.injEq]
          constructor
          · rintro rfl
            exact ⟨rfl, shallow⟩
          · rintro ⟨same, -⟩
            exact same
      · next span deep =>
          refine ⟨nofun, ?_⟩
          rintro ⟨rfl, shallow⟩
          rw [deep] at shallow
          exact nomatch shallow

end Pattern

end Lexer
