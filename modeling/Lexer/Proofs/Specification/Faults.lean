import Lexer.Proofs.Specification.Steps
import Lexer.Proofs.Text.Lines

/-! # Faults

A specification is malformed in one of two ways.  **The text ends inside of a rule**: its last lines are a
header, reached outside of rules, and the beginning of what a rule goes on with.  The fault is at the header,
and the rest of the rule mends it.  **Or a line is not taken**, with all lines in front of it taken.  The fault
is at that line, and nothing behind it matters any more.  The two have a cause in common, the missing action,
so which of them it was is not told by the fault but by the lines. -/

namespace Lexer.Specification

/-! ## (1) Ending inside of a rule -/

/-- **The beginning of what a rule goes on with** behind its header, and what is missing if the text ends
there. -/
inductive Begun : List Text → Cause → Prop where
  /-- Everything is missing behind the header. -/
  | header : Begun [] .missingBody
  /-- The action is missing behind the brace that opens the rule. -/
  | brace {brace : Text} (isBrace : Text.trim brace = ['{']) : Begun [brace] .missingAction
  /-- The brace that closes the rule is missing behind the action and any lines. -/
  | action {brace action : Text} {extras : List Text} (isBrace : Text.trim brace = ['{'])
      (isOpen : Text.trim action ≠ ['}']) (full : Text.trim action ≠ [])
      (inner : ∀ extra ∈ extras, Text.trim extra ≠ ['}']) :
      Begun (brace :: action :: extras) .unclosedBody

/-- **Lines end inside of a rule**: the last ones are its header, reached outside of rules, and the beginning
of what the rule goes on with.  The fault is at the header. -/
inductive EndsInside : List Text → Fault → Prop where
  /-- Lines up to a rule, its header, and the lines inside of it. -/
  | intro {before inside : List Text} {reading : Reading} {state pattern expanded : Text}
      {cause : Cause} (taken : Reading.start.takeLines 1 before = .ok reading)
      (outside : reading.mode = .outside) (closed : '>' ∉ state)
      (expands : reading.definitions.expand pattern = .ok expanded) (begun : Begun inside cause) :
      EndsInside (before ++ ('<' :: (state ++ '>' :: pattern)) :: inside)
        ⟨1 + before.length, cause⟩

/-- **Lines fail** at the first line that is not taken, and the fault is at that line. -/
def FailsAt (lines : List Text) (fault : Fault) : Prop :=
  ∃ before line after reading, lines = before ++ line :: after ∧
    Reading.start.takeLines 1 before = .ok reading ∧ fault.line = 1 + before.length ∧
    reading.step fault.line line = .error fault

/-- A line behind others that end inside of a rule, if it goes on with the rule. -/
theorem EndsInside.concat {lines : List Text} {line : Text} {header : Nat} {cause next : Cause}
    (ends : EndsInside lines ⟨header, cause⟩)
    (more : ∀ inside, Begun inside cause → Begun (inside ++ [line]) next) :
    EndsInside (lines ++ [line]) ⟨header, next⟩ := by
  cases ends with
  | intro taken outside closed expands begun =>
      rw [List.append_assoc, List.cons_append]
      exact .intro taken outside closed expands (more _ begun)

/-- The number of a line is between one and the number of lines. -/
theorem number_mem (before : List Text) (line : Text) (after : List Text) :
    1 ≤ 1 + before.length ∧ 1 + before.length ≤ (before ++ line :: after).length := by
  rw [List.length_append, List.length_cons]
  omega

/-- The line of a header is among the lines. -/
theorem EndsInside.line_mem {lines : List Text} {fault : Fault} (ends : EndsInside lines fault) :
    1 ≤ fault.line ∧ fault.line ≤ lines.length := by
  cases ends with
  | intro => exact number_mem _ _ _

/-- A line that is not taken is among the lines. -/
theorem FailsAt.line_mem {lines : List Text} {fault : Fault} (fails : FailsAt lines fault) :
    1 ≤ fault.line ∧ fault.line ≤ lines.length := by
  obtain ⟨before, line, after, reading, rfl, -, place, -⟩ := fails
  rw [place]
  exact number_mem before line after

/-- **Lines fail** whatever follows them. -/
theorem FailsAt.append {lines : List Text} {fault : Fault} (fails : FailsAt lines fault)
    (more : List Text) : FailsAt (lines ++ more) fault := by
  obtain ⟨before, line, after, reading, rfl, rest⟩ := fails
  exact ⟨before, line, after ++ more, reading, by rw [List.append_assoc, List.cons_append], rest⟩

namespace Reading

variable {reading : Reading} {fault : Fault}

/-- Outside of rules, a text may end. -/
theorem not_finish_error (outside : reading.mode = .outside) : reading.finish ≠ .error fault := by
  intro unfinished
  rw [finish, outside] at unfinished
  cases unfinished

/-- **Lines are not all taken** exactly if they fail. -/
theorem takeLines_error_iff_failsAt {lines : List Text} :
    start.takeLines 1 lines = .error fault ↔ FailsAt lines fault := by
  rw [takeLines_eq_error_iff]
  constructor
  · rintro ⟨before, line, after, reading, split, taken, fails⟩
    have place := line_of_step_error fails
    exact ⟨before, line, after, reading, split, taken, place, by rw [place, fails]⟩
  · rintro ⟨before, line, after, reading, split, taken, place, fails⟩
    exact ⟨before, line, after, reading, split, taken, by rw [← place, fails]⟩

/-- **One more line** behind lines that are taken: if a rule is open, they end inside of it. -/
theorem endsInside_step {lines : List Text} {line : Text} {next : Reading}
    (taken : start.takeLines 1 lines = .ok reading)
    (ends : ∀ fault, reading.finish = .error fault → EndsInside lines fault)
    (step : reading.step (1 + lines.length) line = .ok next) (fault : Fault)
    (unfinished : next.finish = .error fault) : EndsInside (lines ++ [line]) fault := by
  cases step_eq_ok_iff.1 step with
  | empty outside => exact absurd unfinished (not_finish_error outside)
  | states outside => exact absurd unfinished (not_finish_error outside)
  | tokens outside => exact absurd unfinished (not_finish_error outside)
  | definition outside => exact absurd unfinished (not_finish_error outside)
  | close => exact absurd unfinished (not_finish_error rfl)
  | header outside closed expands =>
      obtain rfl := Except.error.inj unfinished
      exact .intro taken outside closed expands .header
  | brace inside isBrace =>
      obtain rfl := Except.error.inj unfinished
      refine (ends _ (by rw [finish, inside])).concat fun lines begun => ?_
      cases begun with
      | header => exact .brace isBrace
  | action inside isOpen full =>
      obtain rfl := Except.error.inj unfinished
      refine (ends _ (by rw [finish, inside])).concat fun lines begun => ?_
      cases begun with
      | brace isBrace =>
          exact .action isBrace isOpen full fun _ absent => absurd absent List.not_mem_nil
  | extra inside isOpen =>
      obtain rfl := Except.error.inj unfinished
      refine (ends _ (by rw [finish, inside])).concat fun lines begun => ?_
      cases begun with
      | action isBrace isAction full inner =>
          refine .action isBrace isAction full (List.forall_mem_append.2 ⟨inner, ?_⟩)
          exact List.forall_mem_singleton.2 isOpen

/-- **Lines that are taken** and leave a rule open end inside of it. -/
theorem endsInside_of_takeLines {lines : List Text}
    (taken : start.takeLines 1 lines = .ok reading) (unfinished : reading.finish = .error fault) :
    EndsInside lines fault :=
  takeLines_induction (motive := fun lines reading =>
      ∀ fault, reading.finish = .error fault → EndsInside lines fault)
    (fun _ unfinished => absurd unfinished (not_finish_error rfl)) endsInside_step taken fault
    unfinished

/-- Lines inside of a rule leave it open. -/
theorem takeLines_inner {extras : List Text} (inner : ∀ extra ∈ extras, Text.trim extra ≠ ['}'])
    {number header : Nat} {state pattern action : Text} {done : List Text}
    (inside : reading.mode = .body header state pattern action done) :
    ∃ last, reading.takeLines number extras = .ok last ∧
      last.finish = .error ⟨header, .unclosedBody⟩ := by
  induction extras generalizing reading number done with
  | nil => exact ⟨reading, rfl, by rw [finish, inside]⟩
  | cons extra extras ih =>
      rw [List.forall_mem_cons] at inner
      rw [takeLines_cons_of_ok (step_eq_ok_iff.2 (.extra inside inner.1))]
      exact ih inner.2 rfl

/-- The beginning of what a rule goes on with is taken behind its header. -/
theorem takeLines_begun {inside : List Text} {cause : Cause} (begun : Begun inside cause)
    {number header : Nat} {state pattern : Text}
    (mode : reading.mode = .header header state pattern) :
    ∃ last, reading.takeLines number inside = .ok last ∧ last.finish = .error ⟨header, cause⟩ := by
  cases begun with
  | header => exact ⟨reading, rfl, by rw [finish, mode]⟩
  | brace isBrace =>
      exact ⟨_, takeLines_singleton.2 (step_eq_ok_iff.2 (.brace mode isBrace)), rfl⟩
  | action isBrace isOpen full inner =>
      rw [takeLines_cons_of_ok (step_eq_ok_iff.2 (.brace mode isBrace)),
        takeLines_cons_of_ok (step_eq_ok_iff.2 (.action rfl isOpen full))]
      exact takeLines_inner inner rfl

/-- **Lines that end inside of a rule** are taken and leave it open. -/
theorem takeLines_of_endsInside {lines : List Text} (ends : EndsInside lines fault) :
    ∃ reading, start.takeLines 1 lines = .ok reading ∧ reading.finish = .error fault := by
  cases ends with
  | intro taken outside closed expands begun =>
      rw [takeLines_append_of_ok taken,
        takeLines_cons_of_ok (step_eq_ok_iff.2 (.header outside closed expands))]
      exact takeLines_begun begun rfl

/-- **The rest of a rule** can be given wherever reading stands. -/
theorem exists_rest (reading : Reading) (number : Nat) :
    ∃ rest last, reading.takeLines number (Text.lines rest) = .ok last ∧ last.mode = .outside := by
  have closes : ∀ {line state pattern action extras} (current : Reading) (number : Nat),
      current.mode = .body line state pattern action extras →
      ∃ last, current.takeLines number [['}']] = .ok last ∧ last.mode = .outside :=
    fun current number inside =>
      ⟨_, takeLines_singleton.2 (step_eq_ok_iff.2 (.close inside rfl)), rfl⟩
  cases mode : reading.mode with
  | outside => exact ⟨[], reading, rfl, mode⟩
  | header line state pattern =>
      refine ⟨"\x7b\n-\n\x7d\n".toList, ?_⟩
      have rest : Text.lines "\x7b\n-\n\x7d\n".toList = [['{'], ['-'], ['}']] := rfl
      rw [rest, takeLines_cons_of_ok (step_eq_ok_iff.2 (.brace mode rfl)),
        takeLines_cons_of_ok (step_eq_ok_iff.2 (.action rfl (by decide) (by decide)))]
      exact closes _ _ rfl
  | opened line state pattern =>
      refine ⟨"-\n\x7d\n".toList, ?_⟩
      have rest : Text.lines "-\n\x7d\n".toList = [['-'], ['}']] := rfl
      rw [rest, takeLines_cons_of_ok (step_eq_ok_iff.2 (.action mode (by decide) (by decide)))]
      exact closes _ _ rfl
  | body line state pattern action extras =>
      exact ⟨"\x7d\n".toList, closes reading number mode⟩

end Reading

/-! ## (2) Texts -/

/-- **A text is malformed** exactly if it ends inside of a rule or one of its lines is not taken. -/
theorem read_eq_error_iff {text : Text} {fault : Fault} :
    read text = .error fault ↔
      EndsInside (Text.lines text) fault ∨ FailsAt (Text.lines text) fault := by
  constructor
  · intro failed
    rw [read] at failed
    cases taken : Reading.start.takeLines 1 (Text.lines text) with
    | error its =>
        rw [taken] at failed
        obtain rfl := Except.error.inj failed
        exact .inr (Reading.takeLines_error_iff_failsAt.1 taken)
    | ok reading =>
        rw [taken] at failed
        exact .inl (Reading.endsInside_of_takeLines taken failed)
  · rintro (ends | fails)
    · obtain ⟨reading, taken, unfinished⟩ := Reading.takeLines_of_endsInside ends
      rw [read, taken]
      exact unfinished
    · rw [read, Reading.takeLines_error_iff_failsAt.2 fails]
      rfl

/-- **The rest of a rule mends** a text that ends inside of it, with a line feed. -/
theorem exists_read_of_endsInside {text : Text} (last : text.getLast? = some '\n') {fault : Fault}
    (ends : EndsInside (Text.lines text) fault) :
    ∃ more specification, read (text ++ more) = .ok specification := by
  obtain ⟨reading, taken, -⟩ := Reading.takeLines_of_endsInside ends
  obtain ⟨more, finished, rest, outside⟩ :=
    reading.exists_rest (1 + (Text.lines text).length)
  refine ⟨more, finished.specification, read_eq_ok_iff.2 ⟨finished, ?_, outside, rfl⟩⟩
  rw [Text.lines_append_of_ends (.inr last), Reading.takeLines_append_of_ok taken, rest]

/-- **Nothing mends** a text in which a line is not taken, and that ends with a line feed. -/
theorem read_append_of_failsAt {text : Text} (last : text.getLast? = some '\n') {fault : Fault}
    (fails : FailsAt (Text.lines text) fault) (more : Text) :
    read (text ++ more) = .error fault := by
  rw [read_eq_error_iff, Text.lines_append_of_ends (.inr last)]
  exact .inr (fails.append _)

/-- **Faults.**  The line of a fault is one of the text.  Either the text ends inside of a rule, and the fault
is at the header of the rule, or the fault is at the first line that is not taken.  If the text ends with a
line feed, it is the former exactly if some text behind it gives a specification, and the latter exactly if
the fault stays the same whatever follows. -/
theorem read_fault {text : Text} {fault : Fault} (failed : read text = .error fault) :
    (1 ≤ fault.line ∧ fault.line ≤ (Text.lines text).length) ∧
      (EndsInside (Text.lines text) fault ∨ FailsAt (Text.lines text) fault) ∧
      (text.getLast? = some '\n' →
        (EndsInside (Text.lines text) fault ↔
          ∃ more specification, read (text ++ more) = .ok specification) ∧
        (FailsAt (Text.lines text) fault ↔ ∀ more, read (text ++ more) = .error fault)) := by
  have either := read_eq_error_iff.1 failed
  refine ⟨?_, either, fun last => ⟨⟨exists_read_of_endsInside last, ?_⟩,
    ⟨read_append_of_failsAt last, ?_⟩⟩⟩
  · exact either.elim EndsInside.line_mem FailsAt.line_mem
  · rintro ⟨more, specification, mended⟩
    refine either.resolve_right fun fails => ?_
    exact nomatch mended.symm.trans (read_append_of_failsAt last fails more)
  · intro persists
    refine either.resolve_left fun ends => ?_
    obtain ⟨more, specification, mended⟩ := exists_read_of_endsInside last ends
    exact nomatch mended.symm.trans (persists more)

/-- The action is missing at the end of one text, whose fault is at the header and can be mended, and in the
last line of another one, whose fault is at that line and stays. -/
theorem read_fault_missing_action :
    let unfinished := "%X S\n<S>a\n\x7b\n".toList
    let refused := "%X S\n<S>a\n\x7b\n\x7d\n".toList
    read unfinished = .error ⟨2, .missingAction⟩ ∧
      (∃ more specification, read (unfinished ++ more) = .ok specification) ∧
      read refused = .error ⟨4, .missingAction⟩ ∧
      ∀ more, read (refused ++ more) = .error ⟨4, .missingAction⟩ := by
  intro unfinished refused
  have failed : read unfinished = .error ⟨2, .missingAction⟩ := rfl
  have failedAgain : read refused = .error ⟨4, .missingAction⟩ := rfl
  have ends : EndsInside (Text.lines unfinished) ⟨2, .missingAction⟩ :=
    @EndsInside.intro ["%X S".toList] [['{']] _ ['S'] ['a'] ['a'] _ rfl rfl (by decide) rfl
      (.brace rfl)
  have fails : FailsAt (Text.lines refused) ⟨4, .missingAction⟩ :=
    ⟨["%X S".toList, "<S>a".toList, ['{']], ['}'], [], _, rfl, rfl, rfl, rfl⟩
  exact ⟨failed, ((read_fault failed).2.2 rfl).1.1 ends, failedAgain,
    ((read_fault failedAgain).2.2 rfl).2.1 fails⟩

end Lexer.Specification
