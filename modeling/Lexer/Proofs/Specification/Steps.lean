import Lexer.Proofs.Outcome
import Lexer.Specification.Reading
import Mathlib.Data.List.Induction

/-! # Steps of reading

**What a line does** is said here once, with everything that it asks for: a line outside of rules is empty,
declares something, gives a definition or is a header, and a rule goes on with its brace, its action name and
its other lines.  A line is taken exactly if it does one of these things, so every invariant of reading has one
case for each of them. -/

namespace Lexer.Specification

namespace Reading

variable {reading next last : Reading} {number : Nat} {line : Text}

/-! ## (1) One line -/

/-- **What taking a line does.** -/
inductive Takes (reading : Reading) (number : Nat) : Text → Reading → Prop where
  /-- An empty line outside of rules does nothing. -/
  | empty {line : Text} (outside : reading.mode = .outside) (blank : Text.isEmptyLine line = true) :
      Takes reading number line reading
  /-- States are declared. -/
  | states {names : Text} (outside : reading.mode = .outside) :
      Takes reading number ('%' :: 'X' :: names) (reading.declareStates (Text.words names))
  /-- Token classes are declared. -/
  | tokens {names : Text} (outside : reading.mode = .outside) :
      Takes reading number ('%' :: 'L' :: names) (reading.declareTokens (Text.words names))
  /-- A definition is given. -/
  | definition {name pattern expanded : Text} (outside : reading.mode = .outside)
      (closed : '}' ∉ name) (named : name ≠ [])
      (expands : reading.definitions.expand (Text.trimStart pattern) = .ok expanded) :
      Takes reading number ('{' :: (name ++ '}' :: pattern))
        (reading.define name expanded ('{' :: (name ++ '}' :: pattern)))
  /-- The header of a rule is given. -/
  | header {state pattern expanded : Text} (outside : reading.mode = .outside)
      (closed : '>' ∉ state) (expands : reading.definitions.expand pattern = .ok expanded) :
      Takes reading number ('<' :: (state ++ '>' :: pattern))
        { reading with mode := .header number state expanded }
  /-- The brace opens a rule. -/
  | brace {line state pattern : Text} {header : Nat}
      (inside : reading.mode = .header header state pattern) (isBrace : Text.trim line = ['{']) :
      Takes reading number line { reading with mode := .opened header state pattern }
  /-- The action is named. -/
  | action {line state pattern : Text} {header : Nat}
      (inside : reading.mode = .opened header state pattern) (isOpen : Text.trim line ≠ ['}'])
      (full : Text.trim line ≠ []) :
      Takes reading number line
        { reading with mode := .body header state pattern (Text.trim line) [] }
  /-- A further line stands in a rule. -/
  | extra {line state pattern action : Text} {extras : List Text} {header : Nat}
      (inside : reading.mode = .body header state pattern action extras)
      (isOpen : Text.trim line ≠ ['}']) :
      Takes reading number line
        { reading with mode := .body header state pattern action (Text.trim line :: extras) }
  /-- The brace closes a rule. -/
  | close {line state pattern action : Text} {extras : List Text} {header : Nat}
      (inside : reading.mode = .body header state pattern action extras)
      (isBrace : Text.trim line = ['}']) :
      Takes reading number line (reading.addRule ⟨state, pattern, action, extras.reverse⟩)

/-- Expanding a pattern is expanding it with the definitions so far. -/
theorem expand_eq_ok_iff {pattern expanded : Text} :
    reading.expand number pattern = .ok expanded ↔
      reading.definitions.expand pattern = .ok expanded := by
  rw [expand, Except.mapError_eq_ok_iff]

/-- A line outside of rules that is taken does something. -/
theorem takes_of_takeOutside (outside : reading.mode = .outside)
    (taken : reading.takeOutside number line = .ok next) : Takes reading number line next := by
  unfold takeOutside at taken
  split at taken
  · next blank =>
      obtain rfl := Except.ok.inj taken
      exact .empty outside blank
  split at taken
  · obtain rfl := Except.ok.inj taken
    exact .states outside
  · obtain rfl := Except.ok.inj taken
    exact .tokens outside
  · rw [takeDefinition] at taken
    split at taken
    · exact nomatch taken
    · exact nomatch taken
    · next name pattern notEmpty cut =>
        obtain ⟨rfl, closed⟩ := Text.cut?_eq_some_iff.1 cut
        obtain ⟨expanded, expands, rfl⟩ := Except.map_eq_ok_iff.1 taken
        exact .definition outside closed notEmpty (expand_eq_ok_iff.1 expands)
  · rw [takeHeader] at taken
    split at taken
    · exact nomatch taken
    · next state pattern cut =>
        obtain ⟨rfl, closed⟩ := Text.cut?_eq_some_iff.1 cut
        obtain ⟨expanded, expands, rfl⟩ := Except.map_eq_ok_iff.1 taken
        exact .header outside closed (expand_eq_ok_iff.1 expands)
  · exact nomatch taken

/-- A definition that asks for nothing more is taken. -/
theorem takeDefinition_eq_ok {name pattern expanded : Text} (closed : '}' ∉ name)
    (named : name ≠ [])
    (expands : reading.definitions.expand (Text.trimStart pattern) = .ok expanded) (line : Text) :
    reading.takeDefinition number line (name ++ '}' :: pattern) =
      .ok (reading.define name expanded line) := by
  rw [takeDefinition, Text.cut?_eq_some_iff.2 ⟨rfl, closed⟩]
  cases name with
  | nil => exact absurd rfl named
  | cons c name =>
      simp only
      rw [expand_eq_ok_iff.2 expands]
      rfl

/-- A header that asks for nothing more is taken. -/
theorem takeHeader_eq_ok {state pattern expanded : Text} (closed : '>' ∉ state)
    (expands : reading.definitions.expand pattern = .ok expanded) :
    reading.takeHeader number (state ++ '>' :: pattern) =
      .ok { reading with mode := .header number state expanded } := by
  rw [takeHeader, Text.cut?_eq_some_iff.2 ⟨rfl, closed⟩]
  simp only
  rw [expand_eq_ok_iff.2 expands]
  rfl

/-- **A line is taken** exactly if it does something. -/
theorem step_eq_ok_iff : reading.step number line = .ok next ↔ Takes reading number line next := by
  constructor
  · intro taken
    rw [step] at taken
    split at taken
    · next outside => exact takes_of_takeOutside outside taken
    · next inside =>
        split at taken
        · next isBrace =>
            obtain rfl := Except.ok.inj taken
            exact .brace inside isBrace
        · exact nomatch taken
    · next inside =>
        simp only at taken
        split at taken
        · exact nomatch taken
        · next open_ =>
            rw [not_or] at open_
            obtain rfl := Except.ok.inj taken
            exact .action inside open_.1 open_.2
    · next inside =>
        simp only at taken
        split at taken
        · next isBrace =>
            obtain rfl := Except.ok.inj taken
            exact .close inside isBrace
        · next isOpen =>
            obtain rfl := Except.ok.inj taken
            exact .extra inside isOpen
  · intro takes
    rw [step]
    cases takes with
    | empty outside blank =>
        rw [outside]
        simp only [takeOutside, blank, if_pos]
    | states outside =>
        rw [outside]
        rfl
    | tokens outside =>
        rw [outside]
        rfl
    | definition outside closed named expands =>
        rw [outside]
        exact takeDefinition_eq_ok closed named expands _
    | header outside closed expands =>
        rw [outside]
        exact takeHeader_eq_ok closed expands
    | brace inside isBrace =>
        rw [inside]
        exact if_pos isBrace
    | action inside isOpen full =>
        rw [inside]
        exact if_neg (not_or.2 ⟨isOpen, full⟩)
    | extra inside isOpen =>
        rw [inside]
        exact if_neg isOpen
    | close inside isBrace =>
        rw [inside]
        exact if_pos isBrace

/-- A pattern that cannot be expanded is a fault of its line. -/
theorem line_of_expand_error {pattern : Text} {fault : Fault}
    (failed : reading.expand number pattern = .error fault) : fault.line = number := by
  obtain ⟨cause, -, rfl⟩ := Except.mapError_eq_error_iff.1 failed
  rfl

/-- A line outside of rules has a fault with its number. -/
theorem line_of_takeOutside_error {fault : Fault}
    (failed : reading.takeOutside number line = .error fault) : fault.line = number := by
  unfold takeOutside at failed
  split at failed
  · exact nomatch failed
  split at failed
  · exact nomatch failed
  · exact nomatch failed
  · rw [takeDefinition] at failed
    split at failed
    · obtain rfl := Except.error.inj failed
      rfl
    · obtain rfl := Except.error.inj failed
      rfl
    · exact line_of_expand_error (Except.map_eq_error_iff.1 failed)
  · rw [takeHeader] at failed
    split at failed
    · obtain rfl := Except.error.inj failed
      rfl
    · exact line_of_expand_error (Except.map_eq_error_iff.1 failed)
  · obtain rfl := Except.error.inj failed
    rfl

/-- **A line that is not taken** has a fault with its number, wherever reading stands. -/
theorem line_of_step_error {fault : Fault} (failed : reading.step number line = .error fault) :
    fault.line = number := by
  rw [step] at failed
  split at failed
  · exact line_of_takeOutside_error failed
  · split at failed
    · exact nomatch failed
    · obtain rfl := Except.error.inj failed
      rfl
  · simp only at failed
    split at failed
    · obtain rfl := Except.error.inj failed
      rfl
    · exact nomatch failed
  · simp only at failed
    split at failed
    · exact nomatch failed
    · exact nomatch failed

/-! ## (2) Several lines -/

/-- A line and those behind it. -/
theorem takeLines_cons_of_ok {lines : List Text} (taken : reading.step number line = .ok next) :
    reading.takeLines number (line :: lines) = next.takeLines (number + 1) lines := by
  rw [takeLines, taken]

/-- Lines behind others that are taken. -/
theorem takeLines_append_of_ok {left : List Text} (taken : reading.takeLines number left = .ok next)
    (right : List Text) :
    reading.takeLines number (left ++ right) = next.takeLines (number + left.length) right := by
  induction left generalizing reading number with
  | nil =>
      obtain rfl := Except.ok.inj taken
      rfl
  | cons line left ih =>
      rw [takeLines] at taken
      cases step : reading.step number line with
      | error fault =>
          rw [step] at taken
          exact nomatch taken
      | ok middle =>
          rw [step] at taken
          rw [List.cons_append, takeLines_cons_of_ok step, ih taken, List.length_cons,
            Nat.add_right_comm, Nat.add_assoc]

/-- Lines are taken one after the other. -/
theorem takeLines_append {left right : List Text} :
    reading.takeLines number (left ++ right) = .ok last ↔
      ∃ middle, reading.takeLines number left = .ok middle ∧
        middle.takeLines (number + left.length) right = .ok last := by
  induction left generalizing reading number with
  | nil => simp [takeLines]
  | cons line left ih =>
      rw [List.cons_append, takeLines, takeLines]
      cases reading.step number line with
      | error fault => simp
      | ok next =>
          simp only [ih, List.length_cons]
          rw [Nat.add_right_comm, Nat.add_assoc]

/-- One line is taken by a step. -/
theorem takeLines_singleton :
    reading.takeLines number [line] = .ok last ↔ reading.step number line = .ok last := by
  rw [takeLines]
  cases reading.step number line with
  | error fault => simp
  | ok next => simp [takeLines]

/-- **What every step keeps** holds of a run: it holds of no lines, and of one more line if it holds of the
lines in front of it. -/
theorem takeLines_induction {motive : List Text → Reading → Prop} {lines : List Text}
    (nil : motive [] reading)
    (concat : ∀ {before : List Text} {line : Text} {middle next : Reading},
      reading.takeLines number before = .ok middle → motive before middle →
      middle.step (number + before.length) line = .ok next → motive (before ++ [line]) next)
    (taken : reading.takeLines number lines = .ok last) : motive lines last := by
  -- lines are added at the end, since what holds of a reading is about the lines in front of it
  induction lines using List.reverseRecOn generalizing last with
  | nil =>
      obtain rfl := Except.ok.inj taken
      exact nil
  | append_singleton before line ih =>
      obtain ⟨middle, front, step⟩ := takeLines_append.1 taken
      exact concat front (ih front) (takeLines_singleton.1 step)

/-- **Lines are not all taken** exactly if there is a first one that is not. -/
theorem takeLines_eq_error_iff {lines : List Text} {fault : Fault} :
    reading.takeLines number lines = .error fault ↔
      ∃ before line after middle, lines = before ++ line :: after ∧
        reading.takeLines number before = .ok middle ∧
        middle.step (number + before.length) line = .error fault := by
  constructor
  · intro failed
    induction lines generalizing reading number with
    | nil => exact nomatch failed
    | cons line lines ih =>
        rw [takeLines] at failed
        cases taken : reading.step number line with
        | error its =>
            rw [taken] at failed
            obtain rfl := Except.error.inj failed
            exact ⟨[], line, lines, reading, rfl, rfl, taken⟩
        | ok next =>
            rw [taken] at failed
            obtain ⟨before, bad, after, middle, rfl, front, fails⟩ := ih failed
            refine ⟨line :: before, bad, after, middle, rfl, ?_, ?_⟩
            · rw [takeLines_cons_of_ok taken, front]
            · rwa [List.length_cons, ← Nat.add_assoc, Nat.add_right_comm]
  · rintro ⟨before, line, after, middle, rfl, front, fails⟩
    rw [takeLines_append_of_ok front, takeLines, fails]

end Reading

/-! ## (3) Texts -/

/-- **A text is read** exactly if its lines are taken and leave no rule open. -/
theorem read_eq_ok_iff {text : Text} {specification : Specification} :
    read text = .ok specification ↔ ∃ reading, Reading.start.takeLines 1 (Text.lines text) =
      .ok reading ∧ reading.mode = .outside ∧ reading.specification = specification := by
  rw [read, Except.bind_eq_ok_iff]
  refine exists_congr fun reading => and_congr_right fun _ => ?_
  rw [Reading.finish]
  cases reading.mode with
  | outside => simp
  | header line state pattern => simp
  | opened line state pattern => simp
  | body line state pattern action extras => simp

end Lexer.Specification
