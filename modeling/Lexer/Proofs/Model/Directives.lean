import Lexer.Model.Directive
import Lexer.Proofs.Text.Blank
import Lexer.Proofs.Text.Numerals

/-! # Directives are read as they are written

A line that is not blank at either end is a keyword, a keyword that is called with an argument, a keyword
that lacks one, or none of these.  **An argument** stands behind a gap or in parentheses, and gaps around it
are no part of it, nor are those around the line.  Every line is read as exactly one of these: the argument
that was written is the one that is read, and a line is passed over only if it does not start as a directive
does. -/

namespace Lexer.Directive

open Text (IsGap IsTight IsInside)

/-! ## (1) How directives are written -/

/-- **An argument** is not empty and has no blank at either end. -/
structure IsArgument (argument : Text) : Prop where
  /-- It is not empty. -/
  full : argument ≠ []
  /-- It has no blank at either end. -/
  tight : IsTight argument

/-- **A count is written** as a numeral, with or without a plus sign in front. -/
def IsCount (count : Nat) (text : Text) : Prop :=
  Decimal.IsNumeral count text ∨ ∃ digits, text = '+' :: digits ∧ Decimal.IsNumeral count digits

/-- **A keyword is called** with an argument. -/
inductive Calls (keyword argument : Text) : Text → Prop where
  /-- The argument stands behind a gap. -/
  | spaced {gap : Text} (isGap : IsGap gap) (full : gap ≠ []) :
      Calls keyword argument (keyword ++ (gap ++ argument))
  /-- The argument stands in parentheses, with a gap on either side. -/
  | parenthesized {before after : Text} (isGap : IsGap before) (isGapAfter : IsGap after) :
      Calls keyword argument (keyword ++ '(' :: (before ++ (argument ++ after) ++ [')']))

/-- **A line calls a keyword** with an argument, with gaps around the call. -/
def LineCalls (keyword argument line : Text) : Prop :=
  ∃ directive, Calls keyword argument directive ∧ IsInside directive line

/-- **A keyword lacks its argument.** -/
inductive Lacks (keyword : Text) : Text → Prop where
  /-- Nothing stands behind the keyword. -/
  | missing : Lacks keyword keyword
  /-- A parenthesis is not closed at the end. -/
  | unclosed {rest : Text} (noEnd : rest.getLast? ≠ some ')') : Lacks keyword (keyword ++ '(' :: rest)
  /-- Nothing stands in the parentheses. -/
  | empty {gap : Text} (isGap : IsGap gap) : Lacks keyword (keyword ++ '(' :: (gap ++ [')']))

/-- **A directive starts** with a keyword: it stands alone, or a parenthesis or a blank follows. -/
inductive Starts (keyword : Text) : Text → Prop where
  /-- The keyword stands alone. -/
  | alone : Starts keyword keyword
  /-- A parenthesis follows. -/
  | opened (rest : Text) : Starts keyword (keyword ++ '(' :: rest)
  /-- A blank follows. -/
  | spaced {c : Char} (blank : isBlank c = true) (rest : Text) : Starts keyword (keyword ++ c :: rest)

/-- **Malformed directives**, without anything around them. -/
inductive Malformed (directive : Text) : Cause → Prop where
  /-- A move back lacks its length. -/
  | missingLength (lacks : Lacks rewindKeyword directive) : Malformed directive .missingLength
  /-- The length of a move back is not how any count below the limit is written. -/
  | notANumber {argument : Text} (isArgument : IsArgument argument)
      (calls : Calls rewindKeyword argument directive)
      (noCount : ∀ count < UInt64.size, ¬ IsCount count argument) :
      Malformed directive (.notANumber argument)
  /-- A change of state lacks its target. -/
  | missingTarget (lacks : Lacks enterKeyword directive) : Malformed directive .missingTarget

/-! ## (2) Numerals -/

/-- Digits are no blanks. -/
theorem isBlank_of_isDigit {c : Char} (isDigit : Decimal.isDigit c = true) : isBlank c = false := by
  have zero : '0'.toNat = 48 := rfl
  have nine : '9'.toNat = 57 := rfl
  rw [Decimal.isDigit, Bool.and_eq_true, decide_eq_true_iff, decide_eq_true_iff, zero, nine] at isDigit
  rw [← Bool.not_eq_true, isBlank]
  simp only [Bool.or_eq_true, Bool.and_eq_true, decide_eq_true_iff, beq_iff_eq]
  omega

/-- A numeral is a name. -/
theorem isName_of_isNumeral {number : Nat} {text : Text} (numeral : Decimal.IsNumeral number text) :
    Text.IsName text := by
  have read := Decimal.read?_eq_some_iff.2 numeral
  obtain ⟨full, digits, -⟩ := Decimal.read?_eq_some_iff_value.1 read
  exact ⟨full, fun c member => isBlank_of_isDigit (List.all_eq_true.1 digits c member)⟩

/-- A name is an argument. -/
theorem isArgument_of_isName {name : Text} (isName : Text.IsName name) : IsArgument name :=
  ⟨isName.1, isName.isTight⟩

/-- **A count that is written** is an argument. -/
theorem IsCount.isArgument {count : Nat} {text : Text} (isCount : IsCount count text) :
    IsArgument text := by
  obtain numeral | ⟨digits, rfl, numeral⟩ := isCount
  · exact isArgument_of_isName (isName_of_isNumeral numeral)
  · have noBlank := (isName_of_isNumeral numeral).2
    exact isArgument_of_isName ⟨List.cons_ne_nil '+' digits, List.forall_mem_cons.2 ⟨by decide, noBlank⟩⟩

/-- A text without the plus sign in front, if it has one. -/
def withoutPlus : Text → Text
  | '+' :: digits => digits
  | digits => digits

/-- A count is written exactly if a numeral is left without the plus sign in front. -/
theorem isCount_iff {count : Nat} {text : Text} :
    IsCount count text ↔ Decimal.IsNumeral count (withoutPlus text) := by
  unfold withoutPlus
  split
  · next digits =>
      constructor
      · rintro (numeral | ⟨its, same, numeral⟩)
        · -- the plus sign is no digit
          have read := Decimal.read?_eq_some_iff.2 numeral
          obtain ⟨-, all, -⟩ := Decimal.read?_eq_some_iff_value.1 read
          exact absurd (List.all_eq_true.1 all '+' List.mem_cons_self) (by decide)
        · obtain ⟨-, rfl⟩ := List.cons.inj same
          exact numeral
      · exact fun numeral => .inr ⟨digits, rfl, numeral⟩
  · next noPlus =>
      refine ⟨?_, .inl⟩
      rintro (numeral | ⟨digits, same, -⟩)
      · exact numeral
      · exact absurd same (noPlus digits)

/-- A count is read without the plus sign. -/
theorem count?_eq (argument : Text) :
    count? argument = match Decimal.read? (withoutPlus argument) with
      | some count => if count < countLimit then some count else none
      | none => none :=
  rfl

/-- **Counts are read as they are written**, as long as they are below the limit. -/
theorem count?_eq_some_iff {argument : Text} {count : Nat} :
    count? argument = some count ↔ count < UInt64.size ∧ IsCount count argument := by
  rw [isCount_iff, ← Decimal.read?_eq_some_iff, count?_eq]
  cases Decimal.read? (withoutPlus argument) with
  | none => exact ⟨nofun, nofun⟩
  | some its =>
      rw [Option.some.injEq]
      simp only [Option.ite_none_right_eq_some, Option.some.injEq]
      constructor
      · rintro ⟨small, rfl⟩
        exact ⟨small, rfl⟩
      · rintro ⟨small, rfl⟩
        exact ⟨small, rfl⟩

/-! ## (3) Calls -/

/-- A keyword alone has no argument. -/
theorem argument?_self (keyword : Text) : argument? keyword keyword = some none := by
  rw [argument?, Text.dropStart?_eq_some_iff.2 (List.append_nil keyword).symm]

/-- What stands behind a keyword decides about its argument. -/
theorem argument?_append (keyword : Text) (c : Char) (rest : Text) :
    argument? keyword (keyword ++ c :: rest) =
      if c = '(' then some ((parenthesized? rest).bind nonempty?)
      else if isBlank c then some (nonempty? (Text.trim rest))
      else none := by
  rw [argument?, Text.dropStart?_eq_some_iff.2 rfl]

/-- A text that does not start with a keyword is no directive of it. -/
theorem argument?_of_dropStart? {keyword directive : Text}
    (other : Text.dropStart? keyword directive = none) : argument? keyword directive = none := by
  rw [argument?, other]

/-- An argument is kept. -/
theorem nonempty?_of_isArgument {argument : Text} (isArgument : IsArgument argument) :
    nonempty? argument = some argument := by
  rw [nonempty?, if_neg]
  rw [List.isEmpty_iff]
  exact isArgument.full

/-- Parentheses around a text are taken away, with the gaps inside of them. -/
theorem parenthesized?_concat (inside : Text) :
    parenthesized? (inside ++ [')']) = some (Text.trim inside) := by
  rw [parenthesized?, List.getLast?_concat, if_pos rfl, List.dropLast_concat]

/-- **The argument of a call** is read. -/
theorem Calls.argument?_eq {keyword argument directive : Text} (calls : Calls keyword argument directive)
    (isArgument : IsArgument argument) : argument? keyword directive = some (some argument) := by
  cases calls with
  | @spaced gap isGap full =>
      obtain ⟨c, rest, rfl⟩ := List.exists_cons_of_ne_nil full
      rw [IsGap, List.forall_mem_cons] at isGap
      have noParenthesis : c ≠ '(' := by
        rintro rfl
        exact absurd isGap.1 (by decide)
      have trimmed : Text.trim (rest ++ argument) = argument :=
        Text.trim_eq_iff.2 ⟨isArgument.tight, rest, [], isGap.2, nofun, by rw [List.append_nil]⟩
      rw [List.cons_append, argument?_append, if_neg noParenthesis, if_pos isGap.1, trimmed,
        nonempty?_of_isArgument isArgument]
  | @parenthesized before after isGap isGapAfter =>
      have trimmed : Text.trim (before ++ (argument ++ after)) = argument :=
        Text.trim_eq_iff.2 ⟨isArgument.tight, before, after, isGap, isGapAfter, rfl⟩
      rw [argument?_append, if_pos rfl, parenthesized?_concat, trimmed, Option.bind_some,
        nonempty?_of_isArgument isArgument]

/-- **A keyword that lacks its argument** has none. -/
theorem Lacks.argument?_eq {keyword directive : Text} (lacks : Lacks keyword directive) :
    argument? keyword directive = some none := by
  cases lacks with
  | missing => exact argument?_self keyword
  | unclosed noEnd => rw [argument?_append, if_pos rfl, parenthesized?, if_neg noEnd, Option.bind_none]
  | @empty gap isGap =>
      have trimmed : Text.trim gap = [] :=
        Text.trim_eq_iff.2 ⟨⟨nofun, nofun⟩, gap, [], isGap, nofun, by rw [List.append_nil, List.append_nil]⟩
      rw [argument?_append, if_pos rfl, parenthesized?_concat, trimmed]
      rfl

/-- **What does not start with a keyword** is no directive of it. -/
theorem argument?_of_not_starts {keyword directive : Text} (other : ¬ Starts keyword directive) :
    argument? keyword directive = none := by
  cases behind : Text.dropStart? keyword directive with
  | none => exact argument?_of_dropStart? behind
  | some rest =>
      obtain rfl := Text.dropStart?_eq_some_iff.1 behind
      cases rest with
      | nil =>
          rw [List.append_nil] at other
          exact absurd .alone other
      | cons c rest =>
          rw [argument?_append]
          split
          · next same =>
              subst same
              exact absurd (.opened rest) other
          · split
            · next blank => exact absurd (.spaced blank rest) other
            · rfl

/-- A text that starts with a blank, but does not end with one, is an argument behind a gap. -/
theorem exists_gap_append {c : Char} {rest : Text} (blank : isBlank c = true)
    (finish : ∀ d ∈ (c :: rest).getLast?, isBlank d = false) :
    ∃ gap argument, IsGap gap ∧ gap ≠ [] ∧ IsArgument argument ∧ c :: rest = gap ++ argument := by
  have whole : (c :: rest).takeWhile isBlank ++ Text.trimStart (c :: rest) = c :: rest :=
    List.takeWhile_append_dropWhile
  refine ⟨(c :: rest).takeWhile isBlank, Text.trimStart (c :: rest),
    fun d member => List.mem_takeWhile_imp member, ?_, ⟨?_, ?_, ?_⟩, whole.symm⟩
  · rw [List.takeWhile_cons_of_pos blank]
    exact List.cons_ne_nil c _
  · intro empty
    have known := List.getLast?_eq_some_getLast (List.cons_ne_nil c rest)
    have last := finish _ known
    rw [List.dropWhile_eq_nil_iff.1 empty _ (List.getLast_mem _)] at last
    exact nomatch last
  · intro d isFirst
    have left := List.head?_dropWhile_not isBlank (c :: rest)
    rw [← Text.trimStart, isFirst] at left
    exact left
  · intro d isLast
    refine finish d ?_
    rw [← whole, List.getLast?_append, isLast]
    rfl

/-- **Every tight text** calls a keyword with an argument, or lacks the argument, or does not start with the
keyword. -/
theorem calls_or_lacks_or_not_starts (keyword : Text) {directive : Text} (tight : IsTight directive) :
    (∃ argument, IsArgument argument ∧ Calls keyword argument directive) ∨ Lacks keyword directive ∨
      ¬ Starts keyword directive := by
  by_cases starts : Starts keyword directive
  · cases starts with
    | alone => exact .inr (.inl .missing)
    | opened rest =>
        by_cases closed : rest.getLast? = some ')'
        · obtain ⟨inside, rfl⟩ := List.getLast?_eq_some_iff.1 closed
          obtain ⟨before, after, isGap, isGapAfter, whole⟩ := Text.isInside_trim inside
          by_cases empty : Text.trim inside = []
          · refine .inr (.inl (.empty ?_))
            rw [whole, empty, List.nil_append]
            exact fun c member => (List.mem_append.1 member).elim (isGap c) (isGapAfter c)
          · have calls := @Calls.parenthesized keyword (Text.trim inside) before after isGap isGapAfter
            rw [← whole] at calls
            exact .inl ⟨Text.trim inside, ⟨empty, Text.isTight_trim inside⟩, calls⟩
        · exact .inr (.inl (.unclosed closed))
    | @spaced c blank rest =>
        have finish : ∀ d ∈ (c :: rest).getLast?, isBlank d = false := by
          intro d isLast
          refine tight.finish d ?_
          rw [List.getLast?_append, isLast]
          rfl
        obtain ⟨gap, argument, isGap, full, isArgument, whole⟩ := exists_gap_append blank finish
        rw [whole]
        exact .inl ⟨argument, isArgument, .spaced isGap full⟩
  · exact .inr (.inr starts)

/-- **A call** is tight, if the keyword and the argument are. -/
theorem Calls.isTight {keyword argument directive : Text} (calls : Calls keyword argument directive)
    (isKeyword : IsArgument keyword) (isArgument : IsArgument argument) : IsTight directive := by
  cases calls with
  | @spaced gap _ _ =>
      refine ⟨fun c isFirst => isKeyword.tight.start c ?_, fun c isLast => isArgument.tight.finish c ?_⟩
      · rwa [List.head?_append_of_ne_nil _ isKeyword.full] at isFirst
      · rwa [List.getLast?_append_of_ne_nil _ (List.append_ne_nil_of_right_ne_nil gap isArgument.full),
          List.getLast?_append_of_ne_nil _ isArgument.full] at isLast
  | @parenthesized before after _ _ =>
      refine ⟨fun c isFirst => isKeyword.tight.start c ?_, fun c isLast => ?_⟩
      · rwa [List.head?_append_of_ne_nil _ isKeyword.full] at isFirst
      · rw [List.getLast?_append_of_ne_nil _ (List.cons_ne_nil _ _), ← List.cons_append,
          List.getLast?_concat] at isLast
        obtain rfl := Option.some.inj isLast
        decide

/-! ## (4) Lines -/

/-- **What a line is read as.** -/
inductive Reads (line : Text) : Except Fault (Option Action) → Prop where
  /-- The keyword of a new line, with nothing but gaps around it. -/
  | newLine (inside : IsInside newLineKeyword line) : Reads line (.ok (some .newLine))
  /-- A move back by a count below the limit. -/
  | rewind {argument : Text} {count : Nat} (small : count < UInt64.size) (isCount : IsCount count argument)
      (calls : LineCalls rewindKeyword argument line) : Reads line (.ok (some (.rewind count)))
  /-- A change of state. -/
  | enter {target : Text} (isArgument : IsArgument target)
      (calls : LineCalls enterKeyword target line) : Reads line (.ok (some (.enter target)))
  /-- No directive. -/
  | plain (noNewLine : Text.trim line ≠ newLineKeyword) (noRewind : ¬ Starts rewindKeyword (Text.trim line))
      (noEnter : ¬ Starts enterKeyword (Text.trim line)) : Reads line (.ok none)
  /-- A malformed directive. -/
  | malformed {cause : Cause} (malformed : Malformed (Text.trim line) cause) :
      Reads line (.error ⟨line, cause⟩)

/-- The keyword of a new line is an argument. -/
theorem isArgument_newLineKeyword : IsArgument newLineKeyword :=
  isArgument_of_isName (by decide)

/-- The keyword of a move back is an argument. -/
theorem isArgument_rewindKeyword : IsArgument rewindKeyword :=
  isArgument_of_isName (by decide)

/-- The keyword of a change of state is an argument. -/
theorem isArgument_enterKeyword : IsArgument enterKeyword :=
  isArgument_of_isName (by decide)

/-- What has an argument starts with the keyword. -/
theorem exists_append_of_argument? {keyword directive : Text} {argument : Option Text}
    (known : argument? keyword directive = some argument) : ∃ rest, directive = keyword ++ rest := by
  cases behind : Text.dropStart? keyword directive with
  | none =>
      rw [argument?_of_dropStart? behind] at known
      exact nomatch known
  | some rest => exact ⟨rest, Text.dropStart?_eq_some_iff.1 behind⟩

variable {line : Text}

/-- A line with the keyword of a move back. -/
theorem read_of_rewind {argument : Option Text}
    (known : argument? rewindKeyword (Text.trim line) = some argument) :
    read line = match argument with
      | none => .error ⟨line, .missingLength⟩
      | some argument =>
          match count? argument with
          | some count => .ok (some (.rewind count))
          | none => .error ⟨line, .notANumber argument⟩ := by
  have noNewLine : Text.trim line ≠ newLineKeyword := by
    intro same
    rw [same] at known
    exact nomatch known
  unfold read
  simp only [if_neg noNewLine, known]
  cases argument with
  | none => rfl
  | some argument => rfl

/-- A line with the keyword of a change of state. -/
theorem read_of_enter {argument : Option Text}
    (known : argument? enterKeyword (Text.trim line) = some argument) :
    read line = match argument with
      | none => .error ⟨line, .missingTarget⟩
      | some target => .ok (some (.enter target)) := by
  have noNewLine : Text.trim line ≠ newLineKeyword := by
    intro same
    rw [same] at known
    exact nomatch known
  have noRewind : argument? rewindKeyword (Text.trim line) = none := by
    obtain ⟨rest, starts⟩ := exists_append_of_argument? known
    rw [starts]
    exact argument?_of_dropStart? rfl
  unfold read
  simp only [if_neg noNewLine, noRewind, known]
  cases argument with
  | none => rfl
  | some target => rfl

/-- A line without a keyword. -/
theorem read_of_plain (noNewLine : Text.trim line ≠ newLineKeyword)
    (noRewind : ¬ Starts rewindKeyword (Text.trim line))
    (noEnter : ¬ Starts enterKeyword (Text.trim line)) : read line = .ok none := by
  unfold read
  simp only [if_neg noNewLine, argument?_of_not_starts noRewind, argument?_of_not_starts noEnter]

/-- The argument that a line calls a keyword with is the one that is read. -/
theorem LineCalls.argument?_eq {keyword argument : Text} (calls : LineCalls keyword argument line)
    (isKeyword : IsArgument keyword) (isArgument : IsArgument argument) :
    argument? keyword (Text.trim line) = some (some argument) := by
  obtain ⟨directive, called, inside⟩ := calls
  rw [Text.trim_eq_iff.2 ⟨called.isTight isKeyword isArgument, inside⟩]
  exact called.argument?_eq isArgument

/-- **A line is read** as what it is. -/
theorem Reads.read_eq {outcome : Except Fault (Option Action)} (reads : Reads line outcome) :
    read line = outcome := by
  cases reads with
  | newLine inside =>
      have trimmed : Text.trim line = newLineKeyword :=
        Text.trim_eq_iff.2 ⟨isArgument_newLineKeyword.tight, inside⟩
      unfold read
      simp only [if_pos trimmed]
  | rewind small isCount calls =>
      rw [read_of_rewind (calls.argument?_eq isArgument_rewindKeyword isCount.isArgument)]
      simp only [count?_eq_some_iff.2 ⟨small, isCount⟩]
  | enter isArgument calls =>
      rw [read_of_enter (calls.argument?_eq isArgument_enterKeyword isArgument)]
  | plain noNewLine noRewind noEnter => exact read_of_plain noNewLine noRewind noEnter
  | malformed malformed =>
      cases malformed with
      | missingLength lacks => rw [read_of_rewind lacks.argument?_eq]
      | notANumber isArgument calls noCount =>
          rw [read_of_rewind (calls.argument?_eq isArgument)]
          cases counted : count? _ with
          | some count =>
              obtain ⟨small, isCount⟩ := count?_eq_some_iff.1 counted
              exact absurd isCount (noCount count small)
          | none => simp only [counted]
      | missingTarget lacks => rw [read_of_enter lacks.argument?_eq]

/-- **Every line** is read as something. -/
theorem reads_read (line : Text) : Reads line (read line) := by
  have tight := Text.isTight_trim line
  by_cases newLine : Text.trim line = newLineKeyword
  · have isNewLine := Reads.newLine (Text.trim_eq_iff.1 newLine).2
    rwa [isNewLine.read_eq]
  rcases calls_or_lacks_or_not_starts rewindKeyword tight with
    ⟨argument, isArgument, calls⟩ | lacks | noRewind
  · cases counted : count? argument with
    | some count =>
        obtain ⟨small, isCount⟩ := count?_eq_some_iff.1 counted
        have isRewind := Reads.rewind small isCount ⟨_, calls, Text.isInside_trim line⟩
        rwa [isRewind.read_eq]
    | none =>
        have noCount : ∀ count < UInt64.size, ¬ IsCount count argument := by
          intro count small isCount
          rw [count?_eq_some_iff.2 ⟨small, isCount⟩] at counted
          exact nomatch counted
        have isMalformed := @Reads.malformed line _ (.notANumber isArgument calls noCount)
        rwa [isMalformed.read_eq]
  · have isMalformed := @Reads.malformed line _ (.missingLength lacks)
    rwa [isMalformed.read_eq]
  rcases calls_or_lacks_or_not_starts enterKeyword tight with
    ⟨target, isArgument, calls⟩ | lacks | noEnter
  · have isEnter := Reads.enter isArgument ⟨_, calls, Text.isInside_trim line⟩
    rwa [isEnter.read_eq]
  · have isMalformed := @Reads.malformed line _ (.missingTarget lacks)
    rwa [isMalformed.read_eq]
  · have isPlain := Reads.plain newLine noRewind noEnter
    rwa [isPlain.read_eq]

/-- What a line is read as, and nothing else, is its outcome. -/
theorem read_eq_iff {outcome : Except Fault (Option Action)} :
    read line = outcome ↔ Reads line outcome := by
  constructor
  · rintro rfl
    exact reads_read line
  · exact Reads.read_eq

/-- **Directives are read as they are written.**  A line is read as a new line exactly if it is that keyword with
gaps around it; as a move back by a count exactly if the count has 64 bits and the line calls the keyword with
it, behind a gap or in parentheses; and as a change of state exactly if the line calls the keyword with that
state.  Nothing else is asked for.  A line is passed over exactly if, without the gaps around it, it is not the
keyword of a new line and does not start with one of the other two: neither stands alone, or has a parenthesis
or a blank behind it.  All other lines are malformed, which is a fault that carries the line as it was given:
the argument is missing, is not closed or is empty, or it is not how a count of 64 bits is written. -/
theorem read_as_written :
    (∀ line, read line = .ok (some .newLine) ↔ IsInside newLineKeyword line) ∧
    (∀ line count, read line = .ok (some (.rewind count)) ↔
      count < UInt64.size ∧ ∃ digits, IsCount count digits ∧ LineCalls rewindKeyword digits line) ∧
    (∀ line target, read line = .ok (some (.enter target)) ↔
      IsArgument target ∧ LineCalls enterKeyword target line) ∧
    (∀ line, read line ≠ .ok (some .skip) ∧ ∀ class_, read line ≠ .ok (some (.token class_))) ∧
    (∀ line, read line = .ok none ↔ Text.trim line ≠ newLineKeyword ∧
      ¬ Starts rewindKeyword (Text.trim line) ∧ ¬ Starts enterKeyword (Text.trim line)) ∧
    ∀ line fault, read line = .error fault ↔
      fault.line = line ∧ Malformed (Text.trim line) fault.cause := by
  refine ⟨fun line => ?_, fun line count => ?_, fun line target => ?_, fun line => ?_, fun line => ?_,
    fun line fault => ?_⟩
  · refine ⟨fun known => ?_, fun inside => (Reads.newLine inside).read_eq⟩
    cases read_eq_iff.1 known with
    | newLine inside => exact inside
  · constructor
    · intro known
      cases read_eq_iff.1 known with
      | rewind small isCount calls => exact ⟨small, _, isCount, calls⟩
    · rintro ⟨small, digits, isCount, calls⟩
      exact (Reads.rewind small isCount calls).read_eq
  · constructor
    · intro known
      cases read_eq_iff.1 known with
      | enter isArgument calls => exact ⟨isArgument, calls⟩
    · rintro ⟨isArgument, calls⟩
      exact (Reads.enter isArgument calls).read_eq
  · refine ⟨fun known => ?_, fun class_ known => ?_⟩
    · exact nomatch read_eq_iff.1 known
    · exact nomatch read_eq_iff.1 known
  · constructor
    · intro known
      cases read_eq_iff.1 known with
      | plain noNewLine noRewind noEnter => exact ⟨noNewLine, noRewind, noEnter⟩
    · rintro ⟨noNewLine, noRewind, noEnter⟩
      exact (Reads.plain noNewLine noRewind noEnter).read_eq
  · constructor
    · intro known
      cases read_eq_iff.1 known with
      | malformed malformed => exact ⟨rfl, malformed⟩
    · rintro ⟨rfl, malformed⟩
      exact (Reads.malformed malformed).read_eq

/-- Gaps inside of parentheses and around them, and a parenthesis that belongs to the argument. -/
example : read "\t UDJI_U_STANJE( a (b)) )\n".toList = .ok (some (.enter "a (b))".toList)) ∧
    read "VRATI_SE\t+007".toList = .ok (some (.rewind 7)) ∧
    read "VRATI_SE (7)".toList = .error ⟨"VRATI_SE (7)".toList, .notANumber "(7)".toList⟩ := by
  decide +kernel

end Lexer.Directive
