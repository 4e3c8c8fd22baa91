import Lexer.Proofs.Specification.Expansion
import Lexer.Proofs.Specification.Steps
import Lexer.Proofs.Text.Blank
import Lexer.Proofs.Text.Lines

/-! # The grammar of specifications

**The layout** of a specification is the text that says the same: its definition lines, one line for the
states, one for the tokens, and the lines of each rule.  **A specification is well formed** if every field can
stand in its place there: definitions refer to earlier ones, names have no blank, and the fields of a rule do
not end their line or their place too early.  Reading gives exactly the well-formed specifications: the layout
of each is read as the specification, and whatever is read is well formed, because every step keeps the
well-formedness of what was read so far. -/

namespace Lexer

open Definitions (RefersTo bare)

/-! ## (1) Layouts -/

/-- The lines of a rule. -/
def RuleEntry.layoutLines (rule : RuleEntry) : List Text :=
  ('<' :: (rule.state ++ '>' :: rule.pattern)) :: ['{'] :: rule.action :: (rule.extras ++ [['}']])

namespace Specification

/-- A line that declares some names. -/
def declaration (mark : Char) (names : List Text) : Text :=
  '%' :: mark :: ' ' :: [' '].intercalate names

/-- The lines of a specification. -/
def layoutLines (specification : Specification) : List Text :=
  specification.definitions ++
    (declaration 'X' specification.states :: declaration 'L' specification.tokens ::
      specification.rules.flatMap RuleEntry.layoutLines)

/-- **The layout** of a specification. -/
def layout (specification : Specification) : Text :=
  specification.layoutLines.flatMap Text.ended

/-! ## (2) Well-formed specifications -/

/-- **Definition lines and the names that they define**, the latest one first.  A line has a closed name that
is not empty, and refers to names that are defined before it. -/
inductive Defines : List Text → List Text → Prop where
  /-- Nothing is defined. -/
  | nil : Defines [] []
  /-- One more line. -/
  | snoc {lines known : List Text} {name pattern : Text} (before : Defines lines known)
      (closed : '}' ∉ name) (named : name ≠ []) (refers : RefersTo known pattern) :
      Defines (lines ++ ['{' :: (name ++ '}' :: pattern)]) (name :: known)

/-- **The state and the pattern of a rule** are well formed. -/
structure HeaderWellFormed (state pattern : Text) : Prop where
  /-- The state does not close its bracket. -/
  closed : '>' ∉ state
  /-- The state is no more than a line. -/
  state : '\n' ∉ state
  /-- The pattern refers to nothing. -/
  bare : bare pattern = true
  /-- The pattern is no more than a line. -/
  pattern : '\n' ∉ pattern

/-- **A line inside a rule** is trimmed, and no closing brace. -/
structure IsInner (line : Text) : Prop where
  /-- There is no blank at its ends. -/
  trimmed : Text.trim line = line
  /-- It does not close the rule. -/
  isOpen : line ≠ ['}']
  /-- It is no more than a line. -/
  line : '\n' ∉ line

/-- **A rule is well formed.** -/
structure RuleWellFormed (rule : RuleEntry) : Prop where
  /-- Its header is. -/
  header : HeaderWellFormed rule.state rule.pattern
  /-- Its action name is a line inside the rule. -/
  action : IsInner rule.action
  /-- Its action name is not empty. -/
  named : rule.action ≠ []
  /-- Its other lines are lines inside the rule. -/
  extras : ∀ extra ∈ rule.extras, IsInner extra

/-- **A specification is well formed.** -/
structure WellFormed (specification : Specification) : Prop where
  /-- Its definition lines define names. -/
  definitions : ∃ known, Defines specification.definitions known
  /-- Each of them is no more than a line. -/
  lines : ∀ line ∈ specification.definitions, '\n' ∉ line
  /-- Its states are names. -/
  states : ∀ name ∈ specification.states, Text.IsName name
  /-- Its tokens are names. -/
  tokens : ∀ name ∈ specification.tokens, Text.IsName name
  /-- Its rules are well formed. -/
  rules : ∀ rule ∈ specification.rules, RuleWellFormed rule

/-! ## (3) Layouts are read -/

/-- References do not depend on blanks in front. -/
theorem refersTo_trimStart_iff {known : List Text} {text : Text} :
    RefersTo known (Text.trimStart text) ↔ RefersTo known text := by
  induction text with
  | nil => rfl
  | cons c text ih =>
      rw [Text.trimStart, List.dropWhile_cons]
      split
      · next blank =>
          have noBackslash : c ≠ '\\' := by rintro rfl; exact absurd blank (by decide)
          have noBrace : c ≠ '{' := by rintro rfl; exact absurd blank (by decide)
          rw [← Text.trimStart, ih]
          constructor
          · exact .plain noBackslash noBrace
          · intro refers
            cases refers with
            | backslash => exact absurd rfl noBackslash
            | escaped => exact absurd rfl noBackslash
            | reference => exact absurd rfl noBrace
            | plain _ _ behind => exact behind
      · rfl

namespace Reading

/-- **Definition lines are taken**, and define their names. -/
theorem takeLines_definitions {lines known : List Text} (defines : Defines lines known) :
    ∃ definitions, definitions.map Prod.fst = known ∧
      start.takeLines 1 lines = .ok ⟨.outside, definitions, ⟨lines, [], [], []⟩⟩ := by
  induction defines with
  | nil => exact ⟨[], rfl, rfl⟩
  | @snoc lines known name pattern _ closed named refers ih =>
      obtain ⟨definitions, names, taken⟩ := ih
      rw [← names] at refers
      obtain ⟨expanded, expands⟩ := (refersTo_trimStart_iff.2 refers).exists_expand
      refine ⟨(name, expanded) :: definitions, by rw [List.map_cons, names], ?_⟩
      rw [takeLines_append_of_ok taken, takeLines_singleton, step_eq_ok_iff]
      exact .definition rfl closed named expands

/-- States are declared. -/
theorem step_declareStates {reading : Reading} (outside : reading.mode = .outside)
    {names : List Text} (isName : ∀ name ∈ names, Text.IsName name) (number : Nat) :
    reading.step number (declaration 'X' names) = .ok (reading.declareStates names) := by
  have taken := step_eq_ok_iff.2
    (@Takes.states reading number (' ' :: [' '].intercalate names) outside)
  rwa [Text.words_blank_cons (by decide), Text.words_intercalate isName] at taken

/-- Token classes are declared. -/
theorem step_declareTokens {reading : Reading} (outside : reading.mode = .outside)
    {names : List Text} (isName : ∀ name ∈ names, Text.IsName name) (number : Nat) :
    reading.step number (declaration 'L' names) = .ok (reading.declareTokens names) := by
  have taken := step_eq_ok_iff.2
    (@Takes.tokens reading number (' ' :: [' '].intercalate names) outside)
  rwa [Text.words_blank_cons (by decide), Text.words_intercalate isName] at taken

/-- The lines inside a rule are taken up to the one that closes it. -/
theorem takeLines_extras {extras : List Text} (inner : ∀ extra ∈ extras, IsInner extra)
    {reading : Reading} {number header : Nat} {state pattern action : Text} {done : List Text}
    (inside : reading.mode = .body header state pattern action done) :
    reading.takeLines number (extras ++ [['}']]) =
      .ok (reading.addRule ⟨state, pattern, action, done.reverse ++ extras⟩) := by
  induction extras generalizing reading number done with
  | nil =>
      rw [List.nil_append, takeLines_singleton, step_eq_ok_iff, List.append_nil]
      exact .close inside rfl
  | cons extra extras ih =>
      rw [List.forall_mem_cons] at inner
      have isOpen : Text.trim extra ≠ ['}'] := by rw [inner.1.trimmed]; exact inner.1.isOpen
      have taken := step_eq_ok_iff.2 (@Takes.extra reading number extra _ _ _ _ _ inside isOpen)
      rw [inner.1.trimmed] at taken
      rw [List.cons_append, takeLines_cons_of_ok taken, ih inner.2 rfl, List.reverse_cons,
        List.append_assoc, List.singleton_append]
      rfl

/-- **The lines of a rule are taken**, and add it. -/
theorem takeLines_rule {rule : RuleEntry} (wellFormed : RuleWellFormed rule) {reading : Reading}
    (outside : reading.mode = .outside) (number : Nat) :
    reading.takeLines number rule.layoutLines = .ok (reading.addRule rule) := by
  obtain ⟨header, action, named, extras⟩ := wellFormed
  have takesHeader : reading.step number ('<' :: (rule.state ++ '>' :: rule.pattern)) =
      .ok { reading with mode := .header number rule.state rule.pattern } :=
    step_eq_ok_iff.2 (.header outside header.closed (Definitions.expand_of_bare header.bare))
  have takesAction := step_eq_ok_iff.2 (@Takes.action
    { reading with mode := .opened number rule.state rule.pattern } (number + 1 + 1) rule.action
    _ _ _ rfl (by rw [action.trimmed]; exact action.isOpen) (by rw [action.trimmed]; exact named))
  rw [action.trimmed] at takesAction
  rw [RuleEntry.layoutLines, takeLines_cons_of_ok takesHeader,
    takeLines_cons_of_ok (step_eq_ok_iff.2 (.brace rfl rfl)), takeLines_cons_of_ok takesAction,
    takeLines_extras extras rfl]
  rfl

/-- The lines of some rules are taken, and add them. -/
theorem takeLines_rules {rules : List RuleEntry} (wellFormed : ∀ rule ∈ rules, RuleWellFormed rule)
    (definitions : Definitions) (specification : Specification) (number : Nat) :
    takeLines ⟨.outside, definitions, specification⟩ number (rules.flatMap RuleEntry.layoutLines) =
      .ok ⟨.outside, definitions,
        { specification with rules := specification.rules ++ rules }⟩ := by
  induction rules generalizing specification number with
  | nil => rw [List.append_nil]; rfl
  | cons rule rules ih =>
      rw [List.forall_mem_cons] at wellFormed
      rw [List.flatMap_cons, takeLines_append_of_ok (takeLines_rule wellFormed.1 rfl number),
        addRule, ih wellFormed.2]
      simp

end Reading

/-- The lines of a rule are lines. -/
theorem RuleWellFormed.feed_not_mem {rule : RuleEntry} (wellFormed : RuleWellFormed rule) :
    ∀ line ∈ rule.layoutLines, '\n' ∉ line := by
  have header : '\n' ∉ '<' :: (rule.state ++ '>' :: rule.pattern) := by
    have state := wellFormed.header.state
    have pattern := wellFormed.header.pattern
    simp [state, pattern]
  rw [RuleEntry.layoutLines]
  simp only [List.forall_mem_cons, List.forall_mem_append]
  refine ⟨header, by decide, wellFormed.action.line, fun extra member => ?_, by decide, ?_⟩
  · exact (wellFormed.extras extra member).line
  · exact fun line absent => absurd absent List.not_mem_nil

/-- The lines of a specification are lines. -/
theorem WellFormed.feed_not_mem {specification : Specification}
    (wellFormed : specification.WellFormed) : ∀ line ∈ specification.layoutLines, '\n' ∉ line := by
  have states := Text.feed_not_mem_intercalate wellFormed.states
  have tokens := Text.feed_not_mem_intercalate wellFormed.tokens
  rw [layoutLines]
  simp only [List.forall_mem_append, List.forall_mem_cons]
  refine ⟨wellFormed.lines, by simp [declaration, states], by simp [declaration, tokens], ?_⟩
  intro line member
  obtain ⟨rule, isRule, isLine⟩ := List.mem_flatMap.1 member
  exact (wellFormed.rules rule isRule).feed_not_mem line isLine

/-- **The layout of a well-formed specification** is read as the specification. -/
theorem WellFormed.read_layout {specification : Specification}
    (wellFormed : specification.WellFormed) : read specification.layout = .ok specification := by
  obtain ⟨known, defines⟩ := wellFormed.definitions
  obtain ⟨definitions, -, taken⟩ := Reading.takeLines_definitions defines
  refine read_eq_ok_iff.2 ⟨⟨.outside, definitions, specification⟩, ?_, rfl, rfl⟩
  rw [layout, Text.lines_flatMap_ended wellFormed.feed_not_mem, layoutLines,
    Reading.takeLines_append_of_ok taken,
    Reading.takeLines_cons_of_ok (Reading.step_declareStates rfl wellFormed.states _),
    Reading.takeLines_cons_of_ok (Reading.step_declareTokens rfl wellFormed.tokens _)]
  exact Reading.takeLines_rules wellFormed.rules definitions _ _

/-! ## (4) What is read is well formed -/

/-- **A mode is well formed** if what was read of an open rule is. -/
def Mode.WellFormed : Mode → Prop
  | .outside => True
  | .header _ state pattern => HeaderWellFormed state pattern
  | .opened _ state pattern => HeaderWellFormed state pattern
  | .body _ state pattern action extras =>
      RuleWellFormed ⟨state, pattern, action, extras.reverse⟩

/-- **A reading is well formed**: what was read is, and definitions are bare lines. -/
structure Reading.WellFormed (reading : Reading) : Prop where
  /-- What was read of an open rule. -/
  mode : reading.mode.WellFormed
  /-- The names of the definitions are those of the definition lines. -/
  defines : Defines reading.specification.definitions (reading.definitions.map Prod.fst)
  /-- The patterns of the definitions are bare, and no more than lines. -/
  patterns : ∀ entry ∈ reading.definitions, bare entry.2 = true ∧ '\n' ∉ entry.2
  /-- What is complete. -/
  specification : reading.specification.WellFormed

/-- Without anything, a specification is well formed. -/
theorem wellFormed_empty : empty.WellFormed where
  definitions := ⟨[], .nil⟩
  lines _ absent := absurd absent List.not_mem_nil
  states _ absent := absurd absent List.not_mem_nil
  tokens _ absent := absurd absent List.not_mem_nil
  rules _ absent := absurd absent List.not_mem_nil

/-- A line that is trimmed stands inside a rule, unless it is a brace. -/
theorem isInner_trim {line : Text} (isLine : '\n' ∉ line) (isOpen : Text.trim line ≠ ['}']) :
    IsInner (Text.trim line) where
  trimmed := Text.trim_trim line
  isOpen := isOpen
  line feed := isLine (Text.mem_of_mem_trim feed)

namespace Reading

variable {reading next last : Reading} {number : Nat} {line : Text}

/-- Nothing was read. -/
theorem wellFormed_start : start.WellFormed where
  mode := trivial
  defines := .nil
  patterns _ absent := absurd absent List.not_mem_nil
  specification := wellFormed_empty

namespace WellFormed

/-- What is expanded is a bare line. -/
theorem expanded (wellFormed : reading.WellFormed) {pattern text : Text} (isLine : '\n' ∉ pattern)
    (expands : reading.definitions.expand pattern = .ok text) :
    Definitions.bare text = true ∧ '\n' ∉ text := by
  have pasted := Definitions.expands_of_expand pattern expands
  refine ⟨pasted.bare fun entry isEntry => (wellFormed.patterns entry isEntry).1, fun feed => ?_⟩
  rcases pasted.mem feed with inPattern | ⟨entry, isEntry, inEntry⟩ | isOpen | isClose
  · exact isLine inPattern
  · exact (wellFormed.patterns entry isEntry).2 inEntry
  · exact absurd isOpen (by decide)
  · exact absurd isClose (by decide)

/-- A definition keeps a reading well formed. -/
theorem define (wellFormed : reading.WellFormed) {name pattern text : Text}
    (closed : '}' ∉ name) (named : name ≠ []) (isLine : '\n' ∉ '{' :: (name ++ '}' :: pattern))
    (expands : reading.definitions.expand (Text.trimStart pattern) = .ok text) :
    (reading.define name text ('{' :: (name ++ '}' :: pattern))).WellFormed := by
  have refers := refersTo_trimStart_iff.1 (Definitions.expands_of_expand _ expands).refersTo
  have defines := wellFormed.defines.snoc closed named refers
  have patternLine : '\n' ∉ Text.trimStart pattern := by
    intro feed
    have inside := (List.dropWhile_suffix isBlank).subset feed
    exact isLine (by simp [inside])
  refine ⟨wellFormed.mode, defines, ?_, { wellFormed.specification with
    definitions := ⟨_, defines⟩, lines := ?_ }⟩
  · exact List.forall_mem_cons.2 ⟨wellFormed.expanded patternLine expands, wellFormed.patterns⟩
  · refine List.forall_mem_append.2 ⟨wellFormed.specification.lines, ?_⟩
    exact List.forall_mem_singleton.2 isLine

/-- The header of a rule keeps a reading well formed. -/
theorem header (wellFormed : reading.WellFormed) {state pattern text : Text}
    (closed : '>' ∉ state) (isLine : '\n' ∉ '<' :: (state ++ '>' :: pattern))
    (expands : reading.definitions.expand pattern = .ok text) :
    ({ reading with mode := .header number state text } : Reading).WellFormed := by
  have parts : '\n' ∉ state ∧ '\n' ∉ pattern := by
    constructor
    · exact fun feed => isLine (by simp [feed])
    · exact fun feed => isLine (by simp [feed])
  have ⟨isBare, isOneLine⟩ := wellFormed.expanded parts.2 expands
  exact { wellFormed with mode := ⟨closed, parts.1, isBare, isOneLine⟩ }

/-- **A step** keeps a reading well formed. -/
theorem step (wellFormed : reading.WellFormed) (isLine : '\n' ∉ line)
    (taken : reading.step number line = .ok next) : next.WellFormed := by
  have mode := wellFormed.mode
  have complete := wellFormed.specification
  cases step_eq_ok_iff.1 taken with
  | empty => exact wellFormed
  | @states names outside =>
      have words : ∀ name ∈ Text.words names, Text.IsName name :=
        fun _ => Text.isName_of_mem_words
      have states := List.forall_mem_append.2 ⟨complete.states, words⟩
      exact { wellFormed with specification := { complete with states := states } }
  | @tokens names outside =>
      have words : ∀ name ∈ Text.words names, Text.IsName name :=
        fun _ => Text.isName_of_mem_words
      have tokens := List.forall_mem_append.2 ⟨complete.tokens, words⟩
      exact { wellFormed with specification := { complete with tokens := tokens } }
  | definition outside closed named expands => exact wellFormed.define closed named isLine expands
  | header outside closed expands => exact wellFormed.header closed isLine expands
  | brace inside =>
      rw [inside] at mode
      exact { wellFormed with mode := mode }
  | action inside isOpen full =>
      rw [inside] at mode
      have rule : RuleWellFormed ⟨_, _, Text.trim line, []⟩ :=
        ⟨mode, isInner_trim isLine isOpen, full, fun _ absent => absurd absent List.not_mem_nil⟩
      exact { wellFormed with mode := rule }
  | extra inside isOpen =>
      rw [inside] at mode
      have extras := List.forall_mem_append.2
        ⟨mode.extras, List.forall_mem_singleton.2 (isInner_trim isLine isOpen)⟩
      rw [← List.reverse_cons] at extras
      exact { wellFormed with mode := { mode with extras := extras } }
  | close inside =>
      rw [inside] at mode
      have rules := List.forall_mem_append.2 ⟨complete.rules, List.forall_mem_singleton.2 mode⟩
      exact { wellFormed with mode := trivial, specification := { complete with rules := rules } }

/-- **A run** keeps a reading well formed. -/
theorem takeLines (wellFormed : reading.WellFormed) {lines : List Text}
    (areLines : ∀ line ∈ lines, '\n' ∉ line) (taken : reading.takeLines number lines = .ok last) :
    last.WellFormed := by
  refine takeLines_induction (motive := fun lines last => (∀ line ∈ lines, '\n' ∉ line) →
    last.WellFormed) (fun _ => wellFormed) ?_ taken areLines
  intro before line middle next _ kept step areLines
  rw [List.forall_mem_append, List.forall_mem_singleton] at areLines
  exact (kept areLines.1).step areLines.2 step

end WellFormed

end Reading

/-- **What is read is well formed.** -/
theorem wellFormed_of_read {text : Text} {specification : Specification}
    (read : Specification.read text = .ok specification) : specification.WellFormed := by
  obtain ⟨reading, taken, -, rfl⟩ := read_eq_ok_iff.1 read
  exact (Reading.wellFormed_start.takeLines (fun _ => Text.feed_not_mem_of_mem_lines)
    taken).specification

/-- **The grammar.**  The layout of every well-formed specification is read as exactly that specification.
Every specification that is read from any text is well formed, so its layout is read as the same
specification again. -/
theorem read_grammar :
    (∀ specification : Specification, specification.WellFormed →
      read specification.layout = .ok specification) ∧
    ∀ text specification, read text = .ok specification →
      specification.WellFormed ∧ read specification.layout = .ok specification := by
  refine ⟨fun specification wellFormed => wellFormed.read_layout, fun text specification reads => ?_⟩
  have wellFormed := wellFormed_of_read reads
  exact ⟨wellFormed, wellFormed.read_layout⟩

/-- A definition that ends in a backslash, a rule without a state name whose pattern ends in a carriage
return, and lines that are empty or hold two braces. -/
theorem read_grammar_spaced :
    let text := "\x7b x\x7d a\\\n\n%X  A B\n%L\n<>\x7b x\x7d\\\x7b\r\r\n \x7b\n - \n\n\x7d\x7d\n \x7d".toList
    let rule : RuleEntry := ⟨[], "(a\\)\\\x7b\r".toList, ['-'], [[], ['}', '}']]⟩
    let specification : Specification := ⟨["\x7b x\x7d a\\".toList], [['A'], ['B']], [], [rule]⟩
    specification.WellFormed ∧ read specification.layout = .ok specification ∧
      read text = .ok specification ∧
      specification.WellFormed ∧ read specification.layout = .ok specification := by
  intro text rule specification
  have reads : read text = .ok specification := rfl
  have refers : RefersTo [] [' ', 'a', '\\'] :=
    .plain (by decide) (by decide) (.plain (by decide) (by decide) .backslash)
  have isRule : RuleWellFormed rule :=
    ⟨⟨by decide, by decide, rfl, by decide⟩, ⟨rfl, by decide, by decide⟩, by decide,
      List.forall_mem_cons.2 ⟨⟨rfl, by decide, by decide⟩,
        List.forall_mem_singleton.2 ⟨rfl, by decide, by decide⟩⟩⟩
  have states : ∀ name ∈ specification.states, Text.IsName name :=
    List.forall_mem_cons.2 ⟨⟨by decide, List.forall_mem_singleton.2 rfl⟩,
      List.forall_mem_singleton.2 ⟨by decide, List.forall_mem_singleton.2 rfl⟩⟩
  have wellFormed : specification.WellFormed :=
    ⟨⟨_, @Defines.snoc [] [] [' ', 'x'] _ .nil (by decide) (by decide) refers⟩, by decide, states,
      fun _ absent => absurd absent List.not_mem_nil, List.forall_mem_singleton.2 isRule⟩
  exact ⟨wellFormed, read_grammar.1 specification wellFormed, reads,
    read_grammar.2 text specification reads⟩

end Specification

end Lexer
