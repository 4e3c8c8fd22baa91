import Lexer.Proofs.Specification.Expansion
import Lexer.Proofs.Specification.Steps

/-! # Expansion is idempotent

Definitions hold texts that were expanded when they were made.  **Made definitions** are those that have
nothing but such texts, however deep they are nested and however often a name is defined again; reading a
specification keeps its definitions so.  What they expand is bare, and a bare text refers to nothing, so it
expands to itself with any other definitions, or without any. -/

namespace Lexer

namespace Definitions

/-- **Made definitions**: each defined text is one that definitions made earlier expand another text to. -/
inductive Made : Definitions → Prop where
  /-- Nothing is defined. -/
  | nil : Made []
  /-- One more definition. -/
  | define {definitions earlier : Definitions} {name pattern text : Text} (made : Made definitions)
      (madeEarlier : Made earlier) (expanded : earlier.expand pattern = .ok text) :
      Made ((name, text) :: definitions)

/-- **Made definitions are bare.** -/
theorem Made.bare {definitions : Definitions} (made : Made definitions) :
    ∀ entry ∈ definitions, bare entry.2 = true := by
  induction made with
  | nil => exact fun entry absent => absurd absent List.not_mem_nil
  | define _ _ expanded known knownEarlier =>
      rw [List.forall_mem_cons]
      exact ⟨(expands_of_expand _ expanded).bare knownEarlier, known⟩

end Definitions

namespace Specification.Reading

variable {reading next last : Reading} {number : Nat} {line : Text}

/-- **A step** keeps definitions made: what a line defines is expanded with those in front of it. -/
theorem made_step (made : reading.definitions.Made) (taken : reading.step number line = .ok next) :
    next.definitions.Made := by
  cases step_eq_ok_iff.1 taken with
  | empty => exact made
  | states => exact made
  | tokens => exact made
  | definition outside closed named expands => exact made.define made expands
  | header => exact made
  | brace => exact made
  | action => exact made
  | extra => exact made
  | close => exact made

/-- **A run** keeps definitions made. -/
theorem made_takeLines (made : reading.definitions.Made) {lines : List Text}
    (taken : reading.takeLines number lines = .ok last) : last.definitions.Made :=
  takeLines_induction (motive := fun _ last => last.definitions.Made) made
    (fun _ kept step => made_step kept step) taken

end Specification.Reading

namespace Definitions

open Specification (Reading)

/-- **Expansion is idempotent.**  What made definitions expand a text to, any definitions whatsoever expand to
itself.  The definitions of a reading are made, however many lines were read. -/
theorem expand_idempotent :
    (∀ definitions : Definitions, Made definitions → ∀ text expanded,
      definitions.expand text = .ok expanded →
      ∀ others : Definitions, others.expand expanded = .ok expanded) ∧
    ∀ lines reading, Reading.start.takeLines 1 lines = .ok reading → Made reading.definitions := by
  refine ⟨fun definitions made text expanded expands others => ?_, fun lines reading taken => ?_⟩
  · have isBare := (expands_of_expand text expands).bare made.bare
    exact expand_of_bare isBare
  · exact Reading.made_takeLines .nil taken

/-- A definition that ends in a backslash, one that uses it twice, and the first one defined again by the
second: the backslash takes the parenthesis behind it along, so a group stays open. -/
theorem expand_idempotent_backslash :
    let lines := ["\x7bx\x7d a\\".toList, "\x7by\x7d\x7bx\x7d\\\x7b\x7bx\x7d".toList, "\x7bx\x7d\x7by\x7d*".toList]
    let definitions : Definitions :=
      [(['x'], "((a\\)\\\x7b(a\\))*".toList), (['y'], "(a\\)\\\x7b(a\\)".toList), (['x'], "a\\".toList)]
    let expanded := "(((a\\)\\\x7b(a\\))*)\\".toList
    Made definitions ∧ definitions.expand "\x7bx\x7d\\".toList = .ok expanded ∧
      expand [] expanded = .ok expanded ∧ definitions.expand expanded = .ok expanded ∧
      ∃ reading, Reading.start.takeLines 1 lines = .ok reading ∧ reading.definitions = definitions ∧
        Made reading.definitions := by
  intro lines definitions expanded
  have expands : definitions.expand "\x7bx\x7d\\".toList = .ok expanded := rfl
  have taken : Reading.start.takeLines 1 lines = .ok
      ⟨.outside, definitions, ⟨lines, [], [], []⟩⟩ := rfl
  have made : Made definitions := expand_idempotent.2 lines _ taken
  have again := expand_idempotent.1 definitions made _ expanded expands
  exact ⟨made, expands, again [], again definitions, _, taken, rfl, made⟩

end Definitions

end Lexer
