import Lexer.Proofs.Specification.Expansion
import Lexer.Proofs.Text.Lines

/-! # Reading one text behind another

A text that is read behind another one starts with definitions, declarations and rules that are there already,
and with a line number that is higher.  **Reading is compositional**: a step of the text on its own and the
same step behind another text do the same, apart from what was there and from the line numbers, as long as no
reference misses its definition.  Definitions of the text itself come first when a name is looked up, so it
does not matter which names were defined before. -/

namespace Lexer.Specification

/-! ## (1) What stands in front -/

/-- **Two specifications**, one behind the other. -/
instance : Append Specification :=
  ⟨fun first second =>
    ⟨first.definitions ++ second.definitions, first.states ++ second.states,
      first.tokens ++ second.tokens, first.rules ++ second.rules⟩⟩

/-- Each list is appended. -/
theorem append_eq (first second : Specification) :
    first ++ second =
      ⟨first.definitions ++ second.definitions, first.states ++ second.states,
        first.tokens ++ second.tokens, first.rules ++ second.rules⟩ :=
  rfl

/-- Nothing in front changes nothing behind. -/
theorem append_empty (specification : Specification) : specification ++ empty = specification := by
  simp [append_eq, empty]

/-- A fault behind some lines. -/
def Fault.behind (count : Nat) (fault : Fault) : Fault :=
  { fault with line := fault.line + count }

/-- A mode behind some lines: the line of a header is a higher one. -/
def Mode.behind (count : Nat) : Mode → Mode
  | .outside => .outside
  | .header line state pattern => .header (line + count) state pattern
  | .opened line state pattern => .opened (line + count) state pattern
  | .body line state pattern action extras => .body (line + count) state pattern action extras

/-- **A reading behind an earlier one**, which took some lines. -/
def Reading.behind (earlier : Reading) (count : Nat) (reading : Reading) : Reading :=
  ⟨reading.mode.behind count, reading.definitions ++ earlier.definitions,
    earlier.specification ++ reading.specification⟩

/-- **Outcomes that miss no definition.** -/
def Settled {α : Type} (outcome : Except Fault α) : Prop :=
  ∀ line name, outcome ≠ .error ⟨line, .reference (.unknown name)⟩

/-- An outcome behind some lines: its value is changed, and so is the line of its fault. -/
def outcomeBehind {α β : Type} (count : Nat) (change : α → β) (outcome : Except Fault α) :
    Except Fault β :=
  (outcome.map change).mapError (Fault.behind count)

/-- A success misses nothing. -/
theorem settled_ok {α : Type} (value : α) : Settled (.ok value : Except Fault α) := by
  intro line name missing
  cases missing

/-- What a settled outcome is mapped from is settled. -/
theorem Settled.of_map {α β : Type} {outcome : Except Fault α} {f : α → β}
    (settled : Settled (outcome.map f)) : Settled outcome :=
  fun line name missing => settled line name (Except.map_eq_error_iff.2 missing)

/-- Outcomes may be mapped in front of others, or behind. -/
theorem map_outcomeBehind {α β γ δ : Type} {count : Nat} {f : α → β} {change : α → γ} {g : γ → δ}
    {last : β → δ} (same : ∀ value, g (change value) = last (f value))
    (outcome : Except Fault α) :
    (outcomeBehind count change outcome).map g = outcomeBehind count last (outcome.map f) := by
  cases outcome with
  | error fault => rfl
  | ok value => exact congrArg Except.ok (same value)

namespace Reading

variable {reading earlier : Reading} {number count : Nat}

/-! ## (2) Steps -/

/-- A settled expansion gives the same text behind an earlier reading. -/
theorem expand_behind {pattern : Text} (settled : Settled (reading.expand number pattern)) :
    (earlier.behind count reading).expand (number + count) pattern =
      outcomeBehind count id (reading.expand number pattern) := by
  have same : Definitions.expand (reading.definitions ++ earlier.definitions) pattern =
      reading.definitions.expand pattern := by
    refine Definitions.expand_append earlier.definitions pattern fun name missing => ?_
    refine settled number name ?_
    rw [expand, missing]
    rfl
  rw [expand, behind, same, expand]
  cases reading.definitions.expand pattern with
  | error cause => rfl
  | ok text => rfl

/-- A definition is added behind what was there. -/
theorem define_behind (name pattern line : Text) :
    (earlier.behind count reading).define name pattern line =
      earlier.behind count (reading.define name pattern line) := by
  simp [behind, define, append_eq]

/-- A definition behind an earlier reading. -/
theorem takeDefinition_behind {line rest : Text}
    (settled : Settled (reading.takeDefinition number line rest)) :
    (earlier.behind count reading).takeDefinition (number + count) line rest =
      outcomeBehind count (earlier.behind count) (reading.takeDefinition number line rest) := by
  unfold takeDefinition at settled ⊢
  split
  · rfl
  · rfl
  · next name pattern _ named =>
      rw [named] at settled
      simp only at settled
      rw [expand_behind settled.of_map]
      refine map_outcomeBehind (fun text => ?_) _
      exact define_behind name text line

/-- The header of a rule behind an earlier reading. -/
theorem takeHeader_behind {rest : Text} (settled : Settled (reading.takeHeader number rest)) :
    (earlier.behind count reading).takeHeader (number + count) rest =
      outcomeBehind count (earlier.behind count) (reading.takeHeader number rest) := by
  unfold takeHeader at settled ⊢
  split
  · rfl
  · next state pattern named =>
      rw [named] at settled
      simp only at settled
      rw [expand_behind settled.of_map]
      refine map_outcomeBehind (fun text => ?_) _
      rfl

/-- A line outside of rules behind an earlier reading. -/
theorem takeOutside_behind {line : Text} (settled : Settled (reading.takeOutside number line)) :
    (earlier.behind count reading).takeOutside (number + count) line =
      outcomeBehind count (earlier.behind count) (reading.takeOutside number line) := by
  unfold takeOutside at settled ⊢
  split
  · rfl
  · next full =>
      rw [if_neg full] at settled
      split
      · exact congrArg Except.ok (by simp [behind, declareStates, append_eq])
      · exact congrArg Except.ok (by simp [behind, declareTokens, append_eq])
      · exact takeDefinition_behind settled
      · exact takeHeader_behind settled
      · rfl

/-- **A step behind an earlier reading** does what it does alone, apart from what was there. -/
theorem step_behind {line : Text} (settled : Settled (reading.step number line)) :
    (earlier.behind count reading).step (number + count) line =
      outcomeBehind count (earlier.behind count) (reading.step number line) := by
  -- the mode is the same on both sides, apart from the line of a header
  cases mode : reading.mode with
  | outside =>
      have alone : reading.step number line = reading.takeOutside number line := by rw [step, mode]
      have behindIt : (earlier.behind count reading).mode = .outside := by
        rw [behind, mode]
        rfl
      rw [alone] at settled ⊢
      rw [step, behindIt]
      exact takeOutside_behind settled
  | header header state pattern =>
      rw [step, behind, mode, step, mode]
      simp only [Mode.behind]
      split
      · exact congrArg Except.ok (by simp [behind, Mode.behind])
      · rfl
  | opened header state pattern =>
      rw [step, behind, mode, step, mode]
      simp only [Mode.behind]
      split
      · rfl
      · exact congrArg Except.ok (by simp [behind, Mode.behind])
  | body header state pattern action extras =>
      rw [step, behind, mode, step, mode]
      simp only [Mode.behind]
      split
      · exact congrArg Except.ok (by simp [behind, addRule, Mode.behind, append_eq])
      · exact congrArg Except.ok (by simp [behind, Mode.behind])

/-! ## (3) Runs -/

/-- **A run behind an earlier reading.** -/
theorem takeLines_behind {lines : List Text} (settled : Settled (reading.takeLines number lines)) :
    (earlier.behind count reading).takeLines (number + count) lines =
      outcomeBehind count (earlier.behind count) (reading.takeLines number lines) := by
  induction lines generalizing reading number with
  | nil => rfl
  | cons line lines ih =>
      rw [takeLines] at settled
      rw [takeLines, takeLines]
      cases taken : reading.step number line with
      | error fault =>
          rw [taken] at settled
          have alone : Settled (reading.step number line) := by rw [taken]; exact settled
          rw [step_behind alone, taken]
          rfl
      | ok next =>
          rw [taken] at settled
          have alone : Settled (reading.step number line) := by
            rw [taken]
            exact settled_ok next
          rw [step_behind alone, taken]
          have later := ih settled
          rw [Nat.add_right_comm] at later
          exact later

/-- The end of a text behind an earlier reading. -/
theorem finish_behind :
    (earlier.behind count reading).finish =
      outcomeBehind count (earlier.specification ++ ·) reading.finish := by
  rw [finish, behind, finish]
  cases reading.mode with
  | outside => rfl
  | header line state pattern => rfl
  | opened line state pattern => rfl
  | body line state pattern action extras => rfl

end Reading

/-! ## (4) Texts -/

/-- **A text behind another one** that is read and ends with its last line: the outcome is that of the text
alone, behind what the other one gives. -/
theorem read_append_of_settled {front text : Text} {first : Specification}
    (ends : front = [] ∨ front.getLast? = some '\n') (read : Specification.read front = .ok first)
    (settled : Settled (Specification.read text)) :
    Specification.read (front ++ text) =
      outcomeBehind (Text.lines front).length (first ++ ·) (Specification.read text) := by
  obtain ⟨earlier, taken, outside, rfl⟩ := read_eq_ok_iff.1 read
  -- the reading that the front leaves is the start of the text behind it
  have start : earlier = earlier.behind (Text.lines front).length Reading.start := by
    obtain ⟨mode, definitions, specification⟩ := earlier
    obtain rfl : mode = .outside := outside
    rw [Reading.behind, Reading.start, List.nil_append, append_empty]
    rfl
  have run : Settled (Reading.start.takeLines 1 (Text.lines text)) := by
    intro line name missing
    refine settled line name ?_
    rw [Specification.read, missing]
    rfl
  have later : earlier.takeLines (1 + (Text.lines front).length) (Text.lines text) =
      outcomeBehind (Text.lines front).length (earlier.behind (Text.lines front).length)
        (Reading.start.takeLines 1 (Text.lines text)) := by
    have alone := @Reading.takeLines_behind Reading.start earlier 1 (Text.lines front).length _ run
    rwa [← start] at alone
  rw [Specification.read, Text.lines_append_of_ends ends,
    Reading.takeLines_append_of_ok taken, later, Specification.read]
  cases Reading.start.takeLines 1 (Text.lines text) with
  | error fault => rfl
  | ok last => exact Reading.finish_behind

/-- **Composition.**  Let a text be read that is empty or ends with a line feed.  If another text is read,
so is the one behind the other, and gives the definitions, states, tokens and rules of the first one followed
by those of the second.  If the other text has a fault that is no missing definition, the one behind the other
has the same fault, as many lines further on as the first text has. -/
theorem read_append {front text : Text} {first : Specification}
    (ends : front = [] ∨ front.getLast? = some '\n')
    (read : Specification.read front = .ok first) :
    (∀ second, Specification.read text = .ok second →
      Specification.read (front ++ text) =
        .ok ⟨first.definitions ++ second.definitions, first.states ++ second.states,
          first.tokens ++ second.tokens, first.rules ++ second.rules⟩) ∧
    ∀ line cause, Specification.read text = .error ⟨line, cause⟩ →
      (∀ name, cause ≠ .reference (.unknown name)) →
      Specification.read (front ++ text) =
        .error ⟨line + (Text.lines front).length, cause⟩ := by
  constructor
  · intro second readText
    have settled : Settled (Specification.read text) := by
      rw [readText]
      exact settled_ok second
    rw [read_append_of_settled ends read settled, readText]
    rfl
  · intro line cause failed known
    have settled : Settled (Specification.read text) := by
      rw [failed]
      intro its name same
      exact known name (congrArg Fault.cause (Except.error.inj same))
    rw [read_append_of_settled ends read settled, failed]
    rfl

/-- A text that defines a name again, and one whose rule is left open, behind a text of six lines. -/
theorem read_append_redefined :
    let front := "\x7bd\x7d a\n%X S\n<S>\x7bd\x7d\n\x7b\nA\n\x7d\n".toList
    let text := "\x7bd\x7d b\n\x7be\x7d \x7bd\x7dc\n%X T\n<T>\x7be\x7d\n\x7b\n-\n\x7d\n".toList
    let broken := "\x7bd\x7d b\n<T>\x7bd\x7d\n\x7b\n-\nNOVI_REDAK\n".toList
    ∃ first second, Specification.read front = .ok first ∧ Specification.read text = .ok second ∧
      (second.rules.map RuleEntry.pattern) = ["((b)c)".toList] ∧
      Specification.read (front ++ text) =
        .ok ⟨first.definitions ++ second.definitions, first.states ++ second.states,
          first.tokens ++ second.tokens, first.rules ++ second.rules⟩ ∧
      Specification.read broken = .error ⟨2, .unclosedBody⟩ ∧
      Specification.read (front ++ broken) = .error ⟨2 + 6, .unclosedBody⟩ := by
  intro front text broken
  have ends : front = [] ∨ front.getLast? = some '\n' := .inr rfl
  obtain ⟨first, readFront⟩ : ∃ first, Specification.read front = .ok first := ⟨_, rfl⟩
  have failed : Specification.read broken = .error ⟨2, .unclosedBody⟩ := rfl
  refine ⟨first, _, readFront, rfl, rfl, (read_append ends readFront).1 _ rfl, failed, ?_⟩
  exact (read_append ends readFront).2 2 .unclosedBody failed fun _ => nofun

end Lexer.Specification
