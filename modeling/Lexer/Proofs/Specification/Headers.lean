import Lexer.Proofs.Specification.Steps

/-! # The headers of rules

Every rule of a specification that is read comes from one line.  **A header** of some lines is the line of
a state in angle brackets and a pattern, reached outside of rules; it comes with the definitions made so
far and the number of rules that are complete.  Taking a line keeps two facts: a complete rule has a header
with its state, whose pattern expands to that of the rule, and so has the rule that is being read. -/

namespace Lexer.Specification

/-- **A header** among some lines: so many rules are complete in front of it, these definitions are made,
and it gives this state and this pattern. -/
def HeaderIn (lines : List Text) (count : Nat) (definitions : Definitions)
    (state pattern : Text) : Prop :=
  ∃ before after reading, lines = before ++ ('<' :: (state ++ '>' :: pattern)) :: after ∧
    '>' ∉ state ∧ Reading.start.takeLines 1 before = .ok reading ∧ reading.mode = .outside ∧
    reading.specification.rules.length = count ∧ reading.definitions = definitions

/-- Lines behind do not matter to a header. -/
theorem HeaderIn.append {lines : List Text} {count : Nat} {definitions : Definitions}
    {state pattern : Text} (header : HeaderIn lines count definitions state pattern)
    (more : List Text) : HeaderIn (lines ++ more) count definitions state pattern := by
  obtain ⟨before, after, reading, rfl, rest⟩ := header
  exact ⟨before, after ++ more, reading, by rw [List.append_assoc, List.cons_append], rest⟩

namespace Reading

/-- **The rule that is being read**: its state and its pattern. -/
def pending? (reading : Reading) : Option (Text × Text) :=
  match reading.mode with
  | .outside => none
  | .header _ state pattern => some (state, pattern)
  | .opened _ state pattern => some (state, pattern)
  | .body _ state pattern _ _ => some (state, pattern)

/-- **What a step does to the rules.** -/
inductive Progress (reading next : Reading) (line : Text) : Prop where
  /-- Nothing outside of rules. -/
  | outside (before : reading.mode = .outside) (after : next.pending? = none)
      (rules : next.specification.rules = reading.specification.rules)
  /-- A header starts a rule. -/
  | header {state header pattern : Text} (before : reading.mode = .outside)
      (shape : line = '<' :: (state ++ '>' :: header)) (closed : '>' ∉ state)
      (expanded : reading.definitions.expand header = .ok pattern)
      (after : next.pending? = some (state, pattern))
      (rules : next.specification.rules = reading.specification.rules)
  /-- A rule goes on. -/
  | inside (same : next.pending? = reading.pending?)
      (rules : next.specification.rules = reading.specification.rules)
  /-- A rule is complete. -/
  | complete {rule : RuleEntry} (before : reading.pending? = some (rule.state, rule.pattern))
      (after : next.pending? = none)
      (rules : next.specification.rules = reading.specification.rules ++ [rule])

/-- **A step** makes progress. -/
theorem progress_step {reading next : Reading} {number : Nat} {line : Text}
    (taken : reading.step number line = .ok next) : Progress reading next line := by
  cases step_eq_ok_iff.1 taken with
  | empty outside => exact .outside outside (by rw [pending?, outside]) rfl
  | states outside => exact .outside outside (by simp only [pending?, declareStates, outside]) rfl
  | tokens outside => exact .outside outside (by simp only [pending?, declareTokens, outside]) rfl
  | definition outside => exact .outside outside (by simp only [pending?, define, outside]) rfl
  | header outside closed expands => exact .header outside rfl closed expands rfl rfl
  | brace inside => exact .inside (by rw [pending?, pending?, inside]) rfl
  | action inside => exact .inside (by rw [pending?, pending?, inside]) rfl
  | extra inside => exact .inside (by rw [pending?, pending?, inside]) rfl
  | close inside => exact .complete (by rw [pending?, inside]) rfl rfl

end Reading

/-- **Rules with headers**: every complete rule, and the one that is being read. -/
structure Headed (lines : List Text) (reading : Reading) : Prop where
  /-- Every complete rule has a header. -/
  complete : ∀ (index : Nat) (rule : RuleEntry), reading.specification.rules[index]? = some rule →
    ∃ definitions header, HeaderIn lines index definitions rule.state header ∧
      definitions.expand header = .ok rule.pattern
  /-- The rule that is being read has a header. -/
  pending : ∀ state pattern, reading.pending? = some (state, pattern) →
    ∃ definitions header,
      HeaderIn lines reading.specification.rules.length definitions state header ∧
        definitions.expand header = .ok pattern

namespace Headed

/-- Nothing was read. -/
theorem start : Headed [] Reading.start where
  complete index rule found := by simp [Reading.start, Specification.empty] at found
  pending state pattern reads := by simp [Reading.pending?, Reading.start] at reads

/-- Complete rules keep their headers if no rule is added. -/
theorem keep {lines : List Text} {reading next : Reading} (headed : Headed lines reading)
    (line : Text) (rules : next.specification.rules = reading.specification.rules) (index : Nat)
    (rule : RuleEntry) (found : next.specification.rules[index]? = some rule) :
    ∃ definitions header, HeaderIn (lines ++ [line]) index definitions rule.state header ∧
      definitions.expand header = .ok rule.pattern := by
  rw [rules] at found
  obtain ⟨definitions, header, isHeader, expanded⟩ := headed.complete index rule found
  exact ⟨definitions, header, isHeader.append [line], expanded⟩

/-- **One more line** keeps the headers. -/
theorem step {lines : List Text} {reading next : Reading} {line : Text}
    (headed : Headed lines reading) (read : Reading.start.takeLines 1 lines = .ok reading)
    (taken : reading.step (1 + lines.length) line = .ok next) :
    Headed (lines ++ [line]) next := by
  -- one case for each kind of progress; only two of them say something new
  cases Reading.progress_step taken with
  | outside before after rules =>
      refine ⟨headed.keep line rules, fun state pattern reads => ?_⟩
      rw [after] at reads
      exact nomatch reads
  | @header state header pattern before shape closed expanded after rules =>
      refine ⟨headed.keep line rules, fun its found reads => ?_⟩
      rw [after, Option.some.injEq, Prod.mk.injEq] at reads
      obtain ⟨rfl, rfl⟩ := reads
      refine ⟨reading.definitions, header, ⟨lines, [], reading, ?_, closed, read, before, ?_, rfl⟩,
        expanded⟩
      · rw [shape]
      · rw [rules]
  | inside same rules =>
      refine ⟨headed.keep line rules, fun state pattern reads => ?_⟩
      rw [same] at reads
      rw [rules]
      obtain ⟨definitions, header, isHeader, expanded⟩ := headed.pending state pattern reads
      exact ⟨definitions, header, isHeader.append [line], expanded⟩
  | @complete rule before after rules =>
      refine ⟨fun index its found => ?_, fun state pattern reads => ?_⟩
      · rw [rules, List.getElem?_append] at found
        split at found
        · obtain ⟨definitions, header, isHeader, expanded⟩ := headed.complete index its found
          exact ⟨definitions, header, isHeader.append [line], expanded⟩
        · next behind =>
            have last : index - reading.specification.rules.length < 1 :=
              (List.getElem?_eq_some_iff.1 found).1
            -- the new rule is the one that was being read, so its header is known
            obtain rfl : index = reading.specification.rules.length := by omega
            rw [Nat.sub_self] at found
            obtain rfl := Option.some.inj found
            obtain ⟨definitions, header, isHeader, expanded⟩ := headed.pending _ _ before
            exact ⟨definitions, header, isHeader.append [line], expanded⟩
      · rw [after] at reads
        exact nomatch reads

/-- **All lines** keep the headers. -/
theorem takeLines {lines : List Text} {reading : Reading}
    (read : Reading.start.takeLines 1 lines = .ok reading) : Headed lines reading :=
  Reading.takeLines_induction start (fun before headed taken => headed.step before taken) read

end Headed

/-- **Every rule has a header**: the lines in front of it give the rules in front of the rule, and its
pattern expands to that of the rule. -/
theorem exists_header {text : Text} {specification : Specification}
    (read : Specification.read text = .ok specification) {index : Nat} {rule : RuleEntry}
    (found : specification.rules[index]? = some rule) :
    ∃ definitions header, HeaderIn (Text.lines text) index definitions rule.state header ∧
      definitions.expand header = .ok rule.pattern := by
  obtain ⟨reading, taken, -, rfl⟩ := read_eq_ok_iff.1 read
  exact (Headed.takeLines taken).complete index rule found

/-! ## There is one header for a rule -/

namespace Reading

/-- **The phase** of reading: two for every complete rule, and one for a rule that is being read. -/
def phase (reading : Reading) : Nat :=
  2 * reading.specification.rules.length + if reading.pending?.isSome then 1 else 0

/-- A step does not go back. -/
theorem phase_le_of_step {reading next : Reading} {number : Nat} {line : Text}
    (taken : reading.step number line = .ok next) : reading.phase ≤ next.phase := by
  have outsidePhase : reading.mode = .outside →
      reading.phase = 2 * reading.specification.rules.length := by
    intro outside
    rw [phase, pending?, outside]
    rfl
  cases progress_step taken with
  | outside before after rules =>
      rw [outsidePhase before, phase, rules]
      exact Nat.le_add_right _ _
  | header before shape closed expanded after rules =>
      rw [outsidePhase before, phase, rules]
      exact Nat.le_add_right _ _
  | inside same rules =>
      have equal : reading.phase = next.phase := by rw [phase, phase, same, rules]
      exact Nat.le_of_eq equal
  | complete before after rules =>
      rw [phase, phase, before, after, rules, List.length_append, List.length_singleton,
        Option.isSome_some, if_pos rfl, Option.isSome_none, if_neg Bool.false_ne_true]
      omega

/-- Lines do not go back. -/
theorem phase_le_of_takeLines {reading last : Reading} {number : Nat} {lines : List Text}
    (taken : reading.takeLines number lines = .ok last) : reading.phase ≤ last.phase := by
  refine takeLines_induction (motive := fun _ middle => reading.phase ≤ middle.phase)
    (Nat.le_refl _) ?_ taken
  intro before line middle next _ onward step
  exact Nat.le_trans onward (phase_le_of_step step)

/-- A line that starts with a bracket is the header of a rule. -/
theorem step_header {reading next : Reading} {number : Nat} {rest : Text}
    (outside : reading.mode = .outside) (taken : reading.step number ('<' :: rest) = .ok next) :
    next.phase = reading.phase + 1 := by
  cases step_eq_ok_iff.1 taken with
  | empty _ blank => exact absurd blank Bool.false_ne_true
  | header =>
      rw [phase, phase, pending?, pending?, outside]
      rfl
  | brace inside => cases outside.symm.trans inside
  | action inside => cases outside.symm.trans inside
  | extra inside => cases outside.symm.trans inside
  | close inside => cases outside.symm.trans inside

end Reading

/-- **A rule has one header**: as many complete rules in front of it leave only one line. -/
theorem HeaderIn.unique {lines : List Text} {count : Nat} {definitions others : Definitions}
    {state name pattern header : Text} (first : HeaderIn lines count definitions state pattern)
    (second : HeaderIn lines count others name header) :
    definitions = others ∧ state = name ∧ pattern = header := by
  obtain ⟨before, after, reading, split, closed, read, outside, complete, made⟩ := first
  obtain ⟨front, behind, last, again, ends, readLast, outsideLast, completeLast,
    madeLast⟩ := second
  have samePhase : reading.phase = last.phase := by
    rw [Reading.phase, Reading.phase, complete, completeLast, Reading.pending?, Reading.pending?,
      outside, outsideLast]
  -- if one header came first, the phase would be higher at the other one
  have later : ∀ {left right : List Text} {line : Text} {earlier further : Reading},
      Reading.start.takeLines 1 left = .ok earlier → earlier.mode = .outside →
      Reading.start.takeLines 1 (left ++ ('<' :: line) :: right) = .ok further →
      earlier.phase < further.phase := by
    intro left right line earlier further readEarlier outsideEarlier readFurther
    obtain ⟨middle, readMiddle, rest⟩ := Reading.takeLines_append.1 readFurther
    obtain rfl := Except.ok.inj (readEarlier.symm.trans readMiddle)
    rw [Reading.takeLines] at rest
    split at rest
    · next next step =>
        have more := Reading.step_header outsideEarlier step
        have onward := Reading.phase_le_of_takeLines rest
        omega
    · cases rest
  have place : before = front := by
    rw [split, List.append_eq_append_iff] at again
    rcases again with ⟨between, rfl, same⟩ | ⟨between, rfl, same⟩
    · cases between with
      | nil => exact (List.append_nil before).symm
      | cons line between =>
          obtain rfl := (List.cons.inj same).1
          have less := later read outside readLast
          omega
    · cases between with
      | nil => exact List.append_nil front
      | cons line between =>
          obtain rfl := (List.cons.inj same).1
          have less := later readLast outsideLast read
          omega
  subst place
  obtain rfl := Except.ok.inj (read.symm.trans readLast)
  rw [split, List.append_cancel_left_eq, List.cons.injEq, List.cons.injEq] at again
  exact ⟨made.symm.trans madeLast, Text.append_mark_inj closed ends again.1.2⟩

end Lexer.Specification
