import Lexer.Proofs.Matching
import Lexer.Proofs.Outcome
import Lexer.Proofs.Specification.Headers

/-! # References to definitions

A reference is replaced by the defined pattern in parentheses, and the text that comes out is scanned as a
whole.  **Pasting is faithful** if the definition leaves no backslash over: its symbols are then the same
between the parentheses, the group is one item, and the pattern stands for the same words as the header with
each reference read as one item that stands for the words of its definition.  **A dangling definition** ends
in a backslash that takes nothing along.  On its own that backslash stands for itself, but between
parentheses it takes the closing one along, so a group stays open that nothing in a well-formed header
closes. -/

namespace Lexer

open Dialect

/-! ## (1) Scanning what is pasted -/

/-- **Dangling** texts end in a backslash that has no character to take along. -/
def Symbol.dangling : Text → Bool
  | [] => false
  | ['\\'] => true
  | '\\' :: _ :: rest => dangling rest
  | _ :: rest => dangling rest

/-- A character that is no backslash does not make a text dangling. -/
theorem Symbol.dangling_cons {c : Char} (noBackslash : c ≠ '\\') (rest : Text) :
    dangling (c :: rest) = dangling rest := by
  rw [dangling]
  · rintro rfl
    exact absurd rfl noBackslash
  · rintro d after rfl
    exact absurd rfl noBackslash

/-- **Texts that do not dangle** are scanned independently of what follows. -/
theorem Symbol.scan_append {left : Text} (whole : dangling left = false) (right : Text) :
    scan (left ++ right) = scan left ++ scan right := by
  -- the induction follows the scanner, which takes two characters behind a backslash
  induction left using dangling.induct with
  | case1 => rfl
  | case2 => exact nomatch whole
  | case3 c rest ih =>
      rw [dangling] at whole
      rw [List.cons_append, List.cons_append, scan, scan, ih whole, List.cons_append]
  | case4 c rest notLast notEscape ih =>
      have noBackslash := ne_backslash notLast notEscape
      rw [dangling_cons noBackslash] at whole
      rw [List.cons_append, scan_cons noBackslash, scan_cons noBackslash, ih whole,
        List.cons_append]

/-- **Dangling texts** take the next character along. -/
theorem Symbol.scan_append_of_dangling {left : Text} (dangles : dangling left = true) :
    ∃ front, scan left = front ++ [.char '\\'] ∧
      ∀ c right, scan (left ++ c :: right) = front ++ .char (escaped c) :: scan right := by
  induction left using dangling.induct with
  | case1 => exact nomatch dangles
  | case2 => exact ⟨[], rfl, fun c right => by rw [List.singleton_append, scan, List.nil_append]⟩
  | case3 d rest ih =>
      rw [dangling] at dangles
      obtain ⟨front, alone, pasted⟩ := ih dangles
      refine ⟨.char (escaped d) :: front, by rw [scan, alone, List.cons_append], fun c right => ?_⟩
      rw [List.cons_append, List.cons_append, scan, pasted, List.cons_append]
  | case4 d rest notLast notEscape ih =>
      have noBackslash := ne_backslash notLast notEscape
      rw [dangling_cons noBackslash] at dangles
      obtain ⟨front, alone, pasted⟩ := ih dangles
      refine ⟨plain d :: front, by rw [scan_cons noBackslash, alone, List.cons_append],
        fun c right => ?_⟩
      rw [List.cons_append, scan_cons noBackslash, pasted, List.cons_append]

namespace Definitions

/-! ## (2) Expansion -/

mutual

/-- **The names that a text refers to**, in order. -/
def references : Text → List Text
  | [] => []
  | ['\\'] => []
  | '\\' :: _ :: rest => references rest
  | '{' :: rest => referenceAfter [] rest
  | _ :: rest => references rest

/-- The names behind an opening brace, of which the start of the first one was read. -/
def referenceAfter (name : Text) : Text → List Text
  | [] => []
  | '}' :: rest => name.reverse :: references rest
  | c :: rest => referenceAfter (c :: name) rest

end

/-- A reference is named, and so are those behind it. -/
theorem referenceAfter_append {name : Text} (closed : '}' ∉ name) (before rest : Text) :
    referenceAfter before (name ++ '}' :: rest) = (before.reverse ++ name) :: references rest := by
  induction name generalizing before with
  | nil => rw [List.nil_append, referenceAfter, List.append_nil]
  | cons c name ih =>
      rw [List.mem_cons, not_or] at closed
      rw [List.cons_append, referenceAfter, ih closed.2, List.reverse_cons, List.append_assoc,
        List.singleton_append]
      rintro rfl
      exact absurd rfl closed.1

/-- A reference comes in front of those behind it. -/
theorem references_reference {name : Text} (closed : '}' ∉ name) (rest : Text) :
    references ('{' :: (name ++ '}' :: rest)) = name :: references rest := by
  rw [references, referenceAfter_append closed, List.reverse_nil, List.nil_append]

/-- A character that is no backslash and no brace refers to nothing. -/
theorem references_cons {c : Char} (noBackslash : c ≠ '\\') (noBrace : c ≠ '{') (rest : Text) :
    references (c :: rest) = references rest := by
  rw [references]
  · rintro rfl
    exact absurd rfl noBackslash
  · rintro d after rfl
    exact absurd rfl noBackslash
  · rintro rfl
    exact absurd rfl noBrace

/-- **Expansion** as a relation: each reference becomes a group around its definition. -/
inductive Expands (definitions : Definitions) : Text → Text → Prop where
  /-- Nothing is left. -/
  | nil : Expands definitions [] []
  /-- A backslash at the end stays. -/
  | backslash : Expands definitions ['\\'] ['\\']
  /-- An escaped character stays. -/
  | escaped {header text : Text} (c : Char) (rest : Expands definitions header text) :
      Expands definitions ('\\' :: c :: header) ('\\' :: c :: text)
  /-- A reference is replaced. -/
  | reference {name header pattern text : Text} (closed : '}' ∉ name)
      (found : definitions.find? name = some pattern) (rest : Expands definitions header text) :
      Expands definitions ('{' :: (name ++ '}' :: header)) ('(' :: (pattern ++ ')' :: text))
  /-- Any other character stays. -/
  | plain {c : Char} {header text : Text} (noBackslash : c ≠ '\\') (noBrace : c ≠ '{')
      (rest : Expands definitions header text) : Expands definitions (c :: header) (c :: text)

/-- **What a text expands to**, and what a reference and the text behind it expand to. -/
theorem expands_of_expand {definitions : Definitions} (header : Text) :
    ∀ {text}, definitions.expand header = .ok text → Expands definitions header text := by
  -- expansion and the reading of a name call each other, so both claims are proved at once
  refine expand.induct definitions
    (fun header => ∀ {text}, definitions.expand header = .ok text → Expands definitions header text)
    (fun name rest => ∀ {text}, definitions.reference name rest = .ok text →
      ∃ more header pattern after, rest = more ++ '}' :: header ∧ '}' ∉ more ∧
        definitions.find? (name.reverse ++ more) = some pattern ∧
        text = '(' :: (pattern ++ ')' :: after) ∧ Expands definitions header after)
    ?nil ?backslash ?escaped ?brace ?plain ?unclosed ?found ?unknown ?named header
  case nil =>
    intro text expanded
    rw [expand] at expanded
    obtain rfl := Except.ok.inj expanded
    exact .nil
  case backslash =>
    intro text expanded
    rw [expand] at expanded
    obtain rfl := Except.ok.inj expanded
    exact .backslash
  case escaped =>
    intro c rest ih text expanded
    rw [expand, Except.map_eq_ok_iff] at expanded
    obtain ⟨after, inside, rfl⟩ := expanded
    exact .escaped c (ih inside)
  case brace =>
    intro rest ih text expanded
    rw [expand] at expanded
    obtain ⟨name, header, pattern, after, rfl, closed, found, rfl, inside⟩ := ih expanded
    exact .reference closed found inside
  case plain =>
    intro c rest notLast notEscape noBrace ih text expanded
    rw [expand, Except.map_eq_ok_iff] at expanded
    · obtain ⟨after, inside, rfl⟩ := expanded
      exact .plain (Symbol.ne_backslash notLast notEscape) noBrace (ih inside)
    · exact notLast
    · exact notEscape
    · exact noBrace
  case unclosed =>
    intro name text expanded
    rw [reference] at expanded
    exact nomatch expanded
  case found =>
    intro name rest pattern found ih text expanded
    rw [reference, found, Except.map_eq_ok_iff] at expanded
    obtain ⟨after, inside, rfl⟩ := expanded
    refine ⟨[], rest, pattern, after, rfl, List.not_mem_nil, ?_, rfl, ih inside⟩
    rw [List.append_nil]
    exact found
  case unknown =>
    intro name rest unknown text expanded
    rw [reference, unknown] at expanded
    exact nomatch expanded
  case named =>
    intro name c rest noBrace ih text expanded
    rw [reference] at expanded
    · obtain ⟨more, header, pattern, after, rfl, closed, found, rfl, inside⟩ := ih expanded
      refine ⟨c :: more, header, pattern, after, rfl, ?_, ?_, rfl, inside⟩
      · rw [List.mem_cons, not_or]
        exact ⟨fun same => noBrace same.symm, closed⟩
      · rw [List.reverse_cons, List.append_assoc, List.singleton_append] at found
        exact found
    · exact noBrace

/-! ## (3) Meanings of references -/

/-- **References mean what their definitions compile to**: the pattern of every name that a header refers
to is accepted, and the name stands for the words that its automaton accepts. -/
def Compiled (definitions : Definitions) (header : Text) (meaning : Text → Language Char) : Prop :=
  ∀ name ∈ references header, ∃ pattern automaton, definitions.find? name = some pattern ∧
    Automaton.compile pattern = .ok automaton ∧
    ∀ word, automaton.accepts word = true ↔ word ∈ meaning name

/-- References that have a pattern in the grammar with the words of their name. -/
def Meant (definitions : Definitions) (header : Text) (meaning : Text → Language Char) : Prop :=
  ∀ name ∈ references header, ∀ pattern, definitions.find? name = some pattern →
    IsPattern ((Symbol.scan pattern).map Symbol.token) (meaning name)

/-- What is compiled is meant. -/
theorem Compiled.meant {definitions : Definitions} {header : Text}
    {meaning : Text → Language Char} (compiled : Compiled definitions header meaning) :
    Meant definitions header meaning := by
  intro name member pattern found
  obtain ⟨its, automaton, known, built, accepts⟩ := compiled name member
  obtain rfl : its = pattern := Option.some.inj (known.symm.trans found)
  -- the words that are accepted are those of the language of the automaton, which the
  -- dialect gives to the pattern
  have same : meaning name = automaton.language := by
    ext word
    rw [← accepts, Automaton.accepts_iff_mem_language built]
  obtain ⟨tokens, reads, isPattern⟩ := Automaton.denotes_of_compile built
  rw [same, (Symbol.reads_scan its).unique reads]
  exact isPattern

variable {definitions : Definitions} {header text : Text} {meaning : Text → Language Char}

/-! ## (4) Pasting is faithful -/

/-- Every definition that a header refers to may be pasted. -/
def Whole (definitions : Definitions) (header : Text) : Prop :=
  ∀ name ∈ references header, ∀ pattern, definitions.find? name = some pattern →
    Symbol.dangling pattern = false

/-- **The expanded text runs as the header does**, with each reference read as one item. -/
theorem Expands.run (expands : Expands definitions header text)
    (meant : Meant definitions header meaning) (whole : Whole definitions header) :
    ∃ tokens, Reads (some meaning) header tokens ∧
      ∀ stack : Stack, stack.run ((Symbol.scan text).map Symbol.token) = stack.run tokens := by
  -- both texts are followed by the same stack; tokens are compared by what they do to it,
  -- since a group has more tokens than the one item of the header
  induction expands with
  | nil => exact ⟨[], .nil, fun stack => rfl⟩
  | backslash => exact ⟨_, .backslash, fun stack => rfl⟩
  | escaped c rest ih =>
      rw [Meant, references] at meant
      rw [Whole, references] at whole
      obtain ⟨tokens, reads, same⟩ := ih meant whole
      refine ⟨_, Symbol.reads_escaped c reads, fun stack => ?_⟩
      rw [Symbol.scan, List.map_cons, Stack.run_cons, Stack.run_cons]
      simp only [same]
  | plain noBackslash noBrace rest ih =>
      rw [Meant, references_cons noBackslash noBrace] at meant
      rw [Whole, references_cons noBackslash noBrace] at whole
      obtain ⟨tokens, reads, same⟩ := ih meant whole
      refine ⟨_, Symbol.reads_plain noBackslash (fun brace => absurd brace noBrace) reads,
        fun stack => ?_⟩
      rw [Symbol.scan_cons noBackslash, List.map_cons, Stack.run_cons, Stack.run_cons]
      simp only [same]
  | @reference name header pattern text closed found rest ih =>
      rw [Meant, references_reference closed, List.forall_mem_cons] at meant
      rw [Whole, references_reference closed, List.forall_mem_cons] at whole
      obtain ⟨tokens, reads, same⟩ := ih meant.2 whole.2
      refine ⟨_, .reference rfl closed reads, fun stack => ?_⟩
      have group : IsItem (.openGroup :: ((Symbol.scan pattern).map Symbol.token ++ [.closeGroup]))
          (meaning name) := .group (meant.1 pattern found)
      have pasted : (Symbol.scan ('(' :: (pattern ++ ')' :: text))).map Symbol.token =
          (.openGroup :: ((Symbol.scan pattern).map Symbol.token ++ [.closeGroup])) ++
            (Symbol.scan text).map Symbol.token := by
        rw [Symbol.scan_cons (by decide), Symbol.scan_append (whole.1 pattern found),
          Symbol.scan_cons (by decide), List.map_cons, List.map_append, List.map_cons]
        simp [Symbol.plain, Symbol.token]
      -- the pasted group pushes the words that the reference pushes
      rw [pasted, Stack.run_append, group.run stack.current stack.enclosing, Stack.run_cons]
      simp only [Option.bind_some, same]
      rfl

/-- **Pasting is faithful**: the expanded text stands for the words that the header stands for. -/
theorem Expands.denotes_iff (expands : Expands definitions header text)
    (meant : Meant definitions header meaning) (whole : Whole definitions header)
    {words : Language Char} :
    Denotes none text words ↔ Denotes (some meaning) header words := by
  obtain ⟨tokens, reads, same⟩ := expands.run meant whole
  have evaluated : evaluate ((Symbol.scan text).map Symbol.token) = evaluate tokens := by
    rw [evaluate, evaluate, same]
  constructor
  · rintro ⟨found, foundReads, isPattern⟩
    obtain rfl := foundReads.unique (Symbol.reads_scan text)
    rw [← evaluate_eq_some_iff, evaluated, evaluate_eq_some_iff] at isPattern
    exact ⟨tokens, reads, isPattern⟩
  · rintro ⟨found, foundReads, isPattern⟩
    obtain rfl := foundReads.unique reads
    rw [← evaluate_eq_some_iff, ← evaluated, evaluate_eq_some_iff] at isPattern
    exact ⟨_, Symbol.reads_scan text, isPattern⟩

/-! ## (5) Pasting what dangles -/

/-- Some definition that a header refers to dangles. -/
def Dangles (definitions : Definitions) (header : Text) : Prop :=
  ∃ name ∈ references header, ∃ pattern, definitions.find? name = some pattern ∧
    Symbol.dangling pattern = true

/-- The groups that a text opens. -/
def openCount (text : Text) : Nat :=
  ((Symbol.scan text).map Symbol.token).countP Token.isOpen

/-- The groups that a text closes. -/
def closeCount (text : Text) : Nat :=
  ((Symbol.scan text).map Symbol.token).countP Token.isClose

/-- Pasting opens a group. -/
theorem openCount_paste (pattern text : Text) :
    openCount ('(' :: (pattern ++ ')' :: text)) = openCount pattern + openCount text + 1 := by
  rw [openCount, Symbol.scan_cons (by decide)]
  cases dangles : Symbol.dangling pattern with
  | false =>
      rw [Symbol.scan_append dangles, Symbol.scan_cons (by decide)]
      simp [openCount, Symbol.plain, Symbol.token, List.countP_cons, Token.isOpen, Nat.add_assoc]
  | true =>
      obtain ⟨front, alone, pasted⟩ := Symbol.scan_append_of_dangling dangles
      rw [pasted]
      simp [openCount, alone, Symbol.plain, Symbol.token, List.countP_cons, Token.isOpen,
        Token.char]

/-- Pasting closes the group, unless the definition dangles. -/
theorem closeCount_paste (pattern text : Text) :
    closeCount ('(' :: (pattern ++ ')' :: text)) =
      closeCount pattern + closeCount text + if Symbol.dangling pattern then 0 else 1 := by
  rw [closeCount, Symbol.scan_cons (by decide)]
  cases dangles : Symbol.dangling pattern with
  | false =>
      rw [Symbol.scan_append dangles, Symbol.scan_cons (by decide)]
      simp [closeCount, Symbol.plain, Symbol.token, List.countP_cons, Token.isClose,
        Nat.add_assoc]
  | true =>
      obtain ⟨front, alone, pasted⟩ := Symbol.scan_append_of_dangling dangles
      rw [pasted]
      simp [closeCount, alone, Symbol.plain, Symbol.token, Token.isClose, Token.char]

/-- **What dangles leaves groups open**: the expanded text opens more groups than it closes, apart from
those of the header. -/
theorem Expands.surplus (expands : Expands definitions header text)
    (meant : Meant definitions header meaning) :
    ∃ tokens surplus, Reads (some meaning) header tokens ∧
      openCount text + tokens.countP Token.isClose =
        closeCount text + tokens.countP Token.isOpen + surplus ∧
      (Dangles definitions header → 0 < surplus) := by
  -- the surplus counts the references to definitions that dangle
  induction expands with
  | nil =>
      refine ⟨[], 0, .nil, rfl, ?_⟩
      rintro ⟨name, member, -⟩
      simp [references] at member
  | backslash =>
      refine ⟨_, 0, .backslash, rfl, ?_⟩
      rintro ⟨name, member, -⟩
      simp [references] at member
  | escaped c rest ih =>
      rw [Meant, references] at meant
      obtain ⟨tokens, surplus, reads, counts, dangles⟩ := ih meant
      refine ⟨_, surplus, Symbol.reads_escaped c reads, ?_, ?_⟩
      · rw [openCount, closeCount, Symbol.scan]
        exact counts
      · rw [Dangles, references]
        exact dangles
  | @plain c header text noBackslash noBrace rest ih =>
      rw [Meant, references_cons noBackslash noBrace] at meant
      obtain ⟨tokens, surplus, reads, counts, dangles⟩ := ih meant
      refine ⟨_, surplus, Symbol.reads_plain noBackslash (fun brace => absurd brace noBrace) reads,
        ?_, ?_⟩
      · rw [openCount, closeCount] at counts
        rw [openCount, closeCount, Symbol.scan_cons noBackslash, List.map_cons, List.countP_cons,
          List.countP_cons, List.countP_cons, List.countP_cons]
        omega
      · rw [Dangles, references_cons noBackslash noBrace]
        exact dangles
  | @reference name header pattern text closed found rest ih =>
      rw [Meant, references_reference closed, List.forall_mem_cons] at meant
      obtain ⟨tokens, surplus, reads, counts, dangles⟩ := ih meant.2
      -- on its own the definition closes what it opens
      have balanced : openCount pattern = closeCount pattern := (meant.1 pattern found).balanced
      refine ⟨_, surplus + if Symbol.dangling pattern then 1 else 0,
        .reference rfl closed reads, ?_, ?_⟩
      · rw [openCount_paste, closeCount_paste, List.countP_cons_of_neg Bool.false_ne_true,
          List.countP_cons_of_neg Bool.false_ne_true]
        split
        · omega
        · omega
      · rintro ⟨other, member, its, known, dangling⟩
        rw [references_reference closed, List.mem_cons] at member
        rcases member with rfl | member
        · obtain rfl : pattern = its := Option.some.inj (found.symm.trans known)
          rw [dangling, if_pos rfl]
          omega
        · have positive := dangles ⟨other, member, its, known, dangling⟩
          omega

/-- **A well-formed header with a dangling definition** expands to a text that is malformed. -/
theorem Expands.not_denotes (expands : Expands definitions header text)
    (meant : Meant definitions header meaning) (dangles : Dangles definitions header)
    (wellFormed : WellFormed (some meaning) header) (words : Language Char) :
    ¬ Denotes none text words := by
  rintro ⟨found, foundReads, isPattern⟩
  obtain rfl := foundReads.unique (Symbol.reads_scan text)
  obtain ⟨tokens, surplus, reads, counts, positive⟩ := expands.surplus meant
  obtain ⟨its, itsTokens, itsReads, headerPattern⟩ := wellFormed
  obtain rfl := itsReads.unique reads
  -- if the text had a meaning, both it and the header would close what they open
  have textBalanced : openCount text = closeCount text := isPattern.balanced
  have headerBalanced := headerPattern.balanced
  have more := positive dangles
  omega

/-! ## (6) Rules of a specification -/

/-- A text that stands for some words compiles, unless it is nested too deep. -/
theorem exists_compile {text : Text} {words : Language Char} (denotes : Denotes none text words)
    (shallow : ∀ fault, Automaton.compile text = .error fault → fault.cause ≠ .nestedTooDeep) :
    ∃ automaton, Automaton.compile text = .ok automaton := by
  obtain ⟨tree, read, -⟩ := Pattern.exists_ofSymbols_iff.2 denotes
  cases deep : Pattern.tooDeep tree with
  | none => exact ⟨_, Automaton.compile_eq_ok_iff.2 ⟨tree, read, deep, rfl⟩⟩
  | some span =>
      have failed : Automaton.compile text = .error ⟨.nestedTooDeep, span⟩ := by
        rw [Automaton.compile, Pattern.parse, read]
        simp only [bind, Except.bind, deep, Except.map]
      exact absurd rfl (shallow _ failed)

end Definitions

open Definitions

/-- **References.**  Every rule that is read has a header whose expansion is the pattern of the rule.  Let
the names in the header stand for what their definitions compile to.  If no definition dangles and the
expansion is not nested too deep, the rule compiles exactly if the header is well formed with each
reference read as one item, and its automaton accepts the words that the header stands for.  If one dangles
and the header is well formed, the rule does not compile. -/
theorem Specification.read_references {text : Text} {specification : Specification}
    (read : Specification.read text = .ok specification) {index : Nat} {rule : RuleEntry}
    (found : specification.rules[index]? = some rule) :
    ∃ definitions header, HeaderIn (Text.lines text) index definitions rule.state header ∧
      definitions.expand header = .ok rule.pattern ∧
      ∀ meaning, Compiled definitions header meaning →
        (Whole definitions header →
          (∀ fault, Automaton.compile rule.pattern = .error fault →
            fault.cause ≠ .nestedTooDeep) →
          ((∃ automaton, Automaton.compile rule.pattern = .ok automaton) ↔
            WellFormed (some meaning) header) ∧
          ∀ automaton, Automaton.compile rule.pattern = .ok automaton →
            ∃ words, (∀ other, Denotes (some meaning) header other ↔ other = words) ∧
              ∀ word, automaton.accepts word = true ↔ word ∈ words) ∧
        (Dangles definitions header → WellFormed (some meaning) header →
          ∀ automaton, Automaton.compile rule.pattern ≠ .ok automaton) := by
  obtain ⟨definitions, header, isHeader, expanded⟩ := exists_header read found
  refine ⟨definitions, header, isHeader, expanded, fun meaning compiled => ⟨?_, ?_⟩⟩
  · intro whole shallow
    have same : ∀ words, Denotes none rule.pattern words ↔ Denotes (some meaning) header words :=
      fun words => (expands_of_expand header expanded).denotes_iff compiled.meant whole
    refine ⟨⟨?_, ?_⟩, fun automaton built => ?_⟩
    · rintro ⟨automaton, built⟩
      exact ⟨_, (same _).1 (Automaton.denotes_of_compile built)⟩
    · rintro ⟨words, denotes⟩
      exact exists_compile ((same words).2 denotes) shallow
    · have denotes := (same _).1 (Automaton.denotes_of_compile built)
      refine ⟨automaton.language, fun other => ⟨fun meant => meant.unique denotes, ?_⟩,
        fun word => Automaton.accepts_iff_mem_language built⟩
      rintro rfl
      exact denotes
  · intro dangles wellFormed automaton built
    exact (expands_of_expand header expanded).not_denotes compiled.meant dangles wellFormed _
      (Automaton.denotes_of_compile built)

/-- A definition with a bar, referred to twice, once under a star: the bar stays inside both references. -/
theorem Specification.read_references_repeated :
    let text := "\x7bd\x7d a|b\n%X S\n<S>\x7bd\x7d\x7bd\x7d*\n\x7b\nA\n\x7d\n".toList
    ∃ specification rule definitions header meaning automaton words,
      Specification.read text = .ok specification ∧ specification.rules[0]? = some rule ∧
      HeaderIn (Text.lines text) 0 definitions rule.state header ∧
      Compiled definitions header meaning ∧ WellFormed (some meaning) header ∧
      Automaton.compile rule.pattern = .ok automaton ∧ Denotes (some meaning) header words ∧
      ∀ word, automaton.accepts word = true ↔ word ∈ words := by
  intro text
  let rule : RuleEntry := ⟨['S'], "(a|b)(a|b)*".toList, ['A'], []⟩
  have reads : Specification.read text =
      .ok ⟨["\x7bd\x7d a|b".toList], [['S']], [], [rule]⟩ := rfl
  obtain ⟨part, partBuilt⟩ : ∃ part, Automaton.compile ['a', '|', 'b'] = .ok part := ⟨_, rfl⟩
  obtain ⟨automaton, built⟩ : ∃ automaton, Automaton.compile rule.pattern = .ok automaton :=
    ⟨_, rfl⟩
  have isHeader : HeaderIn (Text.lines text) 0 [(['d'], ['a', '|', 'b'])] rule.state
      ['{', 'd', '}', '{', 'd', '}', '*'] :=
    ⟨["\x7bd\x7d a|b".toList, "%X S".toList], [['{'], ['A'], ['}']], _, rfl, by decide, rfl, rfl,
      rfl, rfl⟩
  obtain ⟨definitions, header, found, -, faithful⟩ := @read_references text _ reads 0 rule rfl
  obtain ⟨rfl, -, rfl⟩ := isHeader.unique found
  -- the only name stands for the words of its definition, which no backslash ends
  have named : ∀ name ∈ references ['{', 'd', '}', '{', 'd', '}', '*'], name = ['d'] := by
    simp [references, referenceAfter]
  have compiled : Compiled [(['d'], ['a', '|', 'b'])] ['{', 'd', '}', '{', 'd', '}', '*']
      (fun _ => part.language) := by
    intro name member
    obtain rfl := named name member
    exact ⟨_, part, rfl, partBuilt, fun word => Automaton.accepts_iff_mem_language partBuilt⟩
  have whole : Whole [(['d'], ['a', '|', 'b'])] ['{', 'd', '}', '{', 'd', '}', '*'] := by
    intro name member pattern known
    obtain rfl := named name member
    obtain rfl : ['a', '|', 'b'] = pattern := Option.some.inj known
    rfl
  have shallow : ∀ fault, Automaton.compile rule.pattern = .error fault →
      fault.cause ≠ .nestedTooDeep := by
    intro fault failed
    rw [built] at failed
    exact nomatch failed
  have ⟨accepted, meant⟩ := (faithful _ compiled).1 whole shallow
  obtain ⟨words, only, accepts⟩ := meant automaton built
  exact ⟨_, rule, _, _, _, automaton, words, reads, rfl, isHeader, compiled,
    accepted.1 ⟨automaton, built⟩, built, (only words).2 rfl, accepts⟩

/-- **A definition that is one character and a backslash.**  It compiles on its own and the header is well
formed, but the backslash takes along the parenthesis that was to close the group. -/
theorem Specification.unclosed_of_backslash :
    let text := "\x7ba\x7d x\\\n%X S\n<S>\x7ba\x7d\n\x7b\nA\n\x7d\n".toList
    ∃ specification rule definitions header meaning,
      Specification.read text = .ok specification ∧ specification.rules[0]? = some rule ∧
      HeaderIn (Text.lines text) 0 definitions rule.state header ∧
      definitions.expand header = .ok rule.pattern ∧ Compiled definitions header meaning ∧
      WellFormed (some meaning) header ∧
      Automaton.compile rule.pattern = .error ⟨.unclosedGroup, ⟨0, 1⟩⟩ := by
  obtain ⟨automaton, built⟩ : ∃ automaton, Automaton.compile ['x', '\\'] = .ok automaton :=
    ⟨_, rfl⟩
  refine ⟨_, _, [(['a'], ['x', '\\'])], ['{', 'a', '}'], fun _ => automaton.language, rfl, rfl,
    ?_, rfl, ?_, ?_, rfl⟩
  · exact ⟨["\x7ba\x7d x\\".toList, "%X S".toList], [['{'], ['A'], ['}']], _, rfl, by decide, rfl, rfl,
      rfl, rfl⟩
  · intro name member
    obtain rfl : name = ['a'] := by simpa [references, referenceAfter] using member
    exact ⟨_, automaton, rfl, built, fun word => Automaton.accepts_iff_mem_language built⟩
  · have closed : '}' ∉ ['a'] := by decide
    have reads : Reads (some fun _ => automaton.language) ['{', 'a', '}']
        [.atom automaton.language] := .reference rfl closed .nil
    exact ⟨_, _, reads, .sequence (.snoc .nil (.atom _))⟩

end Lexer
