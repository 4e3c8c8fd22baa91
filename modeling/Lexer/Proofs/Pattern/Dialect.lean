import Lexer.Text.Basic
import Mathlib.Computability.Language

/-! # The dialect of patterns

What a text means in the dialect, independent of how it is parsed.  **Tokens** come first: a backslash
takes the character after it along, and the special characters are the operators.  A text that may
refer to definitions has references as tokens of their own.  **The grammar** then groups tokens: a
pattern is one or more sequences with bars in between, a sequence is any number of items, and an item is
an atom, a group around a pattern, or an item with a star behind it.  Every derivation gives a language;
**evaluating** the tokens with a stack decides which, so a text has at most one meaning. -/

namespace Lexer.Dialect

open Computability

/-! ## (1) Tokens -/

/-- **Tokens** of the dialect. -/
inductive Token where
  /-- Anything that stands for some words by itself. -/
  | atom (words : Language Char)
  /-- The opening parenthesis of a group. -/
  | openGroup
  /-- The closing parenthesis of a group. -/
  | closeGroup
  /-- The bar between two sequences. -/
  | bar
  /-- The star behind an item. -/
  | star

/-- A character that stands for itself. -/
def Token.char (c : Char) : Token :=
  .atom {[c]}

/-- **Reading tokens** from a text.  If names have a meaning, a name in braces is a reference; else a
brace is a character like any other. -/
inductive Reads (meaning : Option (Text → Language Char)) : Text → List Token → Prop where
  /-- Nothing is left. -/
  | nil : Reads meaning [] []
  /-- A backslash at the very end stands for itself. -/
  | backslash : Reads meaning ['\\'] [.char '\\']
  /-- A line feed. -/
  | lineFeed {rest : Text} {tokens : List Token} (reads : Reads meaning rest tokens) :
      Reads meaning ('\\' :: 'n' :: rest) (.char '\n' :: tokens)
  /-- A tab. -/
  | tab {rest : Text} {tokens : List Token} (reads : Reads meaning rest tokens) :
      Reads meaning ('\\' :: 't' :: rest) (.char '\t' :: tokens)
  /-- A space. -/
  | space {rest : Text} {tokens : List Token} (reads : Reads meaning rest tokens) :
      Reads meaning ('\\' :: '_' :: rest) (.char ' ' :: tokens)
  /-- Any other escaped character stands for itself. -/
  | escaped {c : Char} {rest : Text} {tokens : List Token} (other : c ∉ ['n', 't', '_'])
      (reads : Reads meaning rest tokens) : Reads meaning ('\\' :: c :: rest) (.char c :: tokens)
  /-- The empty text. -/
  | blank {rest : Text} {tokens : List Token} (reads : Reads meaning rest tokens) :
      Reads meaning ('$' :: rest) (.atom 1 :: tokens)
  /-- The start of a group. -/
  | openGroup {rest : Text} {tokens : List Token} (reads : Reads meaning rest tokens) :
      Reads meaning ('(' :: rest) (.openGroup :: tokens)
  /-- The end of a group. -/
  | closeGroup {rest : Text} {tokens : List Token} (reads : Reads meaning rest tokens) :
      Reads meaning (')' :: rest) (.closeGroup :: tokens)
  /-- An alternation. -/
  | bar {rest : Text} {tokens : List Token} (reads : Reads meaning rest tokens) :
      Reads meaning ('|' :: rest) (.bar :: tokens)
  /-- A repetition. -/
  | star {rest : Text} {tokens : List Token} (reads : Reads meaning rest tokens) :
      Reads meaning ('*' :: rest) (.star :: tokens)
  /-- Every other character stands for itself. -/
  | char {c : Char} {rest : Text} {tokens : List Token}
      (other : c ∉ ['\\', '$', '(', ')', '|', '*']) (noReference : c = '{' → meaning = none)
      (reads : Reads meaning rest tokens) : Reads meaning (c :: rest) (.char c :: tokens)
  /-- A reference stands for the words that its name means. -/
  | reference {words : Text → Language Char} {name rest : Text} {tokens : List Token}
      (named : meaning = some words) (closed : '}' ∉ name) (reads : Reads meaning rest tokens) :
      Reads meaning ('{' :: (name ++ '}' :: rest)) (.atom (words name) :: tokens)

/-! ### Texts have one reading -/

/-- A text that starts with an opening brace is read as a reference, or the brace is a character. -/
theorem Reads.of_brace {meaning : Option (Text → Language Char)} {body : Text} {tokens : List Token}
    (reads : Reads meaning ('{' :: body) tokens) :
    (meaning = none ∧ ∃ rest, tokens = .char '{' :: rest ∧ Reads meaning body rest) ∨
      ∃ words name after rest, meaning = some words ∧ '}' ∉ name ∧ body = name ++ '}' :: after ∧
        tokens = .atom (words name) :: rest ∧ Reads meaning after rest := by
  -- the text has to be a variable for the case split; only two readings start with a
  -- brace
  generalize whole : '{' :: body = text at reads
  cases reads with
  | char other noReference reads =>
      obtain ⟨rfl, rfl⟩ := List.cons.inj whole
      exact .inl ⟨noReference rfl, _, rfl, reads⟩
  | reference named closed reads =>
      exact .inr ⟨_, _, _, _, named, closed, (List.cons.inj whole).2, rfl, reads⟩
  | _ => simp at whole

/-- **A text is read as one list of tokens.** -/
theorem Reads.unique {meaning : Option (Text → Language Char)} {text : Text}
    {left right : List Token} (first : Reads meaning text left) (second : Reads meaning text right) :
    left = right := by
  -- the induction is on one reading; the first character of the text leaves only the
  -- same step to the other one
  induction first generalizing right with
  | nil =>
      cases second with
      | nil => rfl
  | backslash =>
      cases second with
      | backslash => rfl
      | char other => simp at other
  | lineFeed reads ih =>
      cases second with
      | lineFeed reads => rw [ih reads]
      | escaped other => simp at other
      | char other => simp at other
  | tab reads ih =>
      cases second with
      | tab reads => rw [ih reads]
      | escaped other => simp at other
      | char other => simp at other
  | space reads ih =>
      cases second with
      | space reads => rw [ih reads]
      | escaped other => simp at other
      | char other => simp at other
  | escaped other reads ih =>
      cases second with
      | lineFeed | tab | space => simp at other
      | escaped _ reads => rw [ih reads]
      | char other => simp at other
  | blank reads ih =>
      cases second with
      | blank reads => rw [ih reads]
      | char other => simp at other
  | openGroup reads ih =>
      cases second with
      | openGroup reads => rw [ih reads]
      | char other => simp at other
  | closeGroup reads ih =>
      cases second with
      | closeGroup reads => rw [ih reads]
      | char other => simp at other
  | bar reads ih =>
      cases second with
      | bar reads => rw [ih reads]
      | char other => simp at other
  | star reads ih =>
      cases second with
      | star reads => rw [ih reads]
      | char other => simp at other
  | char other noReference reads ih =>
      cases second with
      | char _ _ reads => rw [ih reads]
      | reference named =>
          rw [noReference rfl] at named
          exact nomatch named
      | _ => simp at other
  | reference named closed reads ih =>
      -- a case split on the other reading would have to solve where its name ends
      rcases second.of_brace with ⟨none, -⟩ | ⟨words, name, after, rest, known, ends, same, rfl, tail⟩
      · rw [none] at named
        exact nomatch named
      · obtain ⟨rfl, rfl⟩ := Text.append_mark_inj closed ends same
        obtain rfl := Option.some.inj (named.symm.trans known)
        rw [ih tail]

/-! ## (2) The grammar -/

mutual

/-- **Items** and the words that they stand for. -/
inductive IsItem : List Token → Language Char → Prop where
  /-- An atom. -/
  | atom (words : Language Char) : IsItem [.atom words] words
  /-- A group around a pattern. -/
  | group {tokens : List Token} {words : Language Char} (inside : IsPattern tokens words) :
      IsItem (.openGroup :: (tokens ++ [.closeGroup])) words
  /-- An item, any number of times. -/
  | star {tokens : List Token} {words : Language Char} (operand : IsItem tokens words) :
      IsItem (tokens ++ [.star]) words∗

/-- **Sequences** of items. -/
inductive IsSequence : List Token → Language Char → Prop where
  /-- No item stands for the empty text. -/
  | nil : IsSequence [] 1
  /-- One more item. -/
  | snoc {front item : List Token} {left right : Language Char} (before : IsSequence front left)
      (last : IsItem item right) : IsSequence (front ++ item) (left * right)

/-- **Patterns**: sequences with bars in between. -/
inductive IsPattern : List Token → Language Char → Prop where
  /-- One sequence. -/
  | sequence {tokens : List Token} {words : Language Char} (only : IsSequence tokens words) :
      IsPattern tokens words
  /-- One more sequence behind a bar. -/
  | bar {front back : List Token} {left right : Language Char} (before : IsPattern front left)
      (last : IsSequence back right) : IsPattern (front ++ .bar :: back) (left + right)

end

/-- **The meaning of a text**: it is well formed and stands for some words. -/
def Denotes (meaning : Option (Text → Language Char)) (text : Text) (words : Language Char) : Prop :=
  ∃ tokens, Reads meaning text tokens ∧ IsPattern tokens words

/-- **Well formed** texts have a meaning. -/
def WellFormed (meaning : Option (Text → Language Char)) (text : Text) : Prop :=
  ∃ words, Denotes meaning text words

/-! ## (3) Evaluation -/

/-- **A frame**: the sum of the finished sequences of a level, and the languages of the items of the
current one, the last one first. -/
structure Frame where
  /-- The sum of the finished sequences. -/
  finished : Language Char
  /-- The languages of the items since, the last one first. -/
  items : List (Language Char)

/-- A level of which nothing was read. -/
def Frame.fresh : Frame :=
  ⟨0, []⟩

/-- The words of a level, if it ends here. -/
def Frame.value (frame : Frame) : Language Char :=
  frame.finished + frame.items.reverse.prod

/-- A frame with one more item. -/
def Frame.push (frame : Frame) (words : Language Char) : Frame :=
  { frame with items := words :: frame.items }

/-- **The stack** of an evaluation. -/
structure Stack where
  /-- The innermost level. -/
  current : Frame
  /-- The levels around it, innermost first. -/
  enclosing : List Frame

/-- Nothing was read. -/
def Stack.start : Stack :=
  ⟨.fresh, []⟩

/-- **Take one token.** -/
def Stack.step (stack : Stack) : Token → Option Stack
  | .atom words => some { stack with current := stack.current.push words }
  | .openGroup => some ⟨.fresh, stack.current :: stack.enclosing⟩
  | .closeGroup =>
      match stack.enclosing with
      | [] => none
      | outer :: enclosing => some ⟨outer.push stack.current.value, enclosing⟩
  | .bar => some { stack with current := ⟨stack.current.value, []⟩ }
  | .star =>
      match stack.current.items with
      | [] => none
      | words :: items => some { stack with current := { stack.current with items := words∗ :: items } }

/-- Take some tokens. -/
def Stack.run (stack : Stack) (tokens : List Token) : Option Stack :=
  tokens.foldlM Stack.step stack

/-- The words of a whole pattern: no group may be open. -/
def Stack.finish (stack : Stack) : Option (Language Char) :=
  match stack.enclosing with
  | [] => some stack.current.value
  | _ :: _ => none

/-- **Evaluate** some tokens. -/
def evaluate (tokens : List Token) : Option (Language Char) :=
  (Stack.start.run tokens).bind Stack.finish

namespace Stack

/-- Tokens are taken one after the other. -/
theorem run_append (stack : Stack) (left right : List Token) :
    stack.run (left ++ right) = (stack.run left).bind fun stack => stack.run right :=
  List.foldlM_append

/-- Taking one token is a step. -/
@[simp] theorem run_singleton (stack : Stack) (token : Token) :
    stack.run [token] = stack.step token := by
  cases step : stack.step token <;> simp [run, step]

/-- Taking a token first is a step. -/
theorem run_cons (stack : Stack) (token : Token) (tokens : List Token) :
    stack.run (token :: tokens) = (stack.step token).bind fun stack => stack.run tokens := by
  rw [← List.singleton_append, run_append, run_singleton]

end Stack

/-! ### The grammar is evaluated -/

mutual

/-- **An item** is pushed. -/
theorem IsItem.run {tokens : List Token} {words : Language Char} :
    IsItem tokens words → ∀ frame enclosing,
      Stack.run ⟨frame, enclosing⟩ tokens = some ⟨frame.push words, enclosing⟩
  | .atom words => fun frame enclosing => by
      rw [Stack.run_singleton]
      rfl
  | .group inside => fun frame enclosing => by
      -- the level of the group is left behind by its pattern, and closing it pushes its words
      obtain ⟨level, value, run⟩ := inside.run (frame :: enclosing)
      rw [Stack.run_cons, Stack.step, Option.bind_some, Stack.run_append, run, Option.bind_some,
        Stack.run_singleton, Stack.step, value]
  | .star operand => fun frame enclosing => by
      rw [Stack.run_append, operand.run frame enclosing, Option.bind_some, Stack.run_singleton]
      rfl

/-- A sequence pushes its items. -/
theorem IsSequence.run {tokens : List Token} {words : Language Char} :
    IsSequence tokens words → ∀ finished enclosing, ∃ items, items.reverse.prod = words ∧
      Stack.run ⟨⟨finished, []⟩, enclosing⟩ tokens = some ⟨⟨finished, items⟩, enclosing⟩
  | .nil => fun finished enclosing => ⟨[], List.prod_nil, rfl⟩
  | @IsSequence.snoc _ _ _ right before last => fun finished enclosing => by
      obtain ⟨items, product, run⟩ := before.run finished enclosing
      refine ⟨right :: items, ?_, ?_⟩
      · rw [List.reverse_cons, List.prod_append, product, List.prod_singleton]
      · rw [Stack.run_append, run, Option.bind_some, last.run]
        rfl

/-- A pattern leaves a level with its words. -/
theorem IsPattern.run {tokens : List Token} {words : Language Char} :
    IsPattern tokens words → ∀ enclosing, ∃ frame : Frame, frame.value = words ∧
      Stack.run ⟨.fresh, enclosing⟩ tokens = some ⟨frame, enclosing⟩
  | .sequence only => fun enclosing => by
      obtain ⟨items, product, run⟩ := only.run 0 enclosing
      exact ⟨⟨0, items⟩, by rw [Frame.value, product, zero_add], run⟩
  | .bar before last => fun enclosing => by
      obtain ⟨frame, value, runFront⟩ := before.run enclosing
      obtain ⟨items, product, runBack⟩ := last.run frame.value enclosing
      refine ⟨⟨frame.value, items⟩, by rw [Frame.value, product, value], ?_⟩
      rw [Stack.run_append, runFront, Option.bind_some, Stack.run_cons, Stack.step, Option.bind_some]
      exact runBack

end

/-! ### What is evaluated is in the grammar -/

/-- The tokens of some items, the last one first. -/
inductive ItemsOf : List (Language Char) → List Token → Prop where
  /-- No item. -/
  | nil : ItemsOf [] []
  /-- One more item. -/
  | cons {items : List (Language Char)} {words : Language Char} {front item : List Token}
      (before : ItemsOf items front) (last : IsItem item words) :
      ItemsOf (words :: items) (front ++ item)

/-- Items make a sequence. -/
theorem ItemsOf.isSequence {items : List (Language Char)} {tokens : List Token}
    (itemsOf : ItemsOf items tokens) : IsSequence tokens items.reverse.prod := by
  induction itemsOf with
  | nil => exact .nil
  | cons before last ih =>
      rw [List.reverse_cons, List.prod_append, List.prod_singleton]
      exact .snoc ih last

/-- The tokens of a level: finished sequences up to a bar, and the items since. -/
def FrameOf (frame : Frame) (tokens : List Token) : Prop :=
  (frame.finished = 0 ∧ ItemsOf frame.items tokens) ∨
    ∃ front back, tokens = front ++ .bar :: back ∧ IsPattern front frame.finished ∧
      ItemsOf frame.items back

/-- A level is a pattern, if it ends here. -/
theorem FrameOf.isPattern {frame : Frame} {tokens : List Token} (frameOf : FrameOf frame tokens) :
    IsPattern tokens frame.value := by
  rcases frameOf with ⟨none, items⟩ | ⟨front, back, rfl, before, items⟩
  · rw [Frame.value, none, zero_add]
    exact .sequence items.isSequence
  · exact .bar before items.isSequence

/-- A level goes on with an item. -/
theorem FrameOf.push {frame : Frame} {tokens item : List Token} {words : Language Char}
    (frameOf : FrameOf frame tokens) (isItem : IsItem item words) :
    FrameOf (frame.push words) (tokens ++ item) := by
  rcases frameOf with ⟨none, items⟩ | ⟨front, back, rfl, before, items⟩
  · exact .inl ⟨none, .cons items isItem⟩
  · exact .inr ⟨front, back ++ item, by rw [List.append_assoc, List.cons_append], before,
      .cons items isItem⟩

/-- The last item of a level takes a star. -/
theorem FrameOf.star {finished words : Language Char} {items : List (Language Char)}
    {tokens : List Token} (frameOf : FrameOf ⟨finished, words :: items⟩ tokens) :
    FrameOf ⟨finished, words∗ :: items⟩ (tokens ++ [.star]) := by
  rcases frameOf with ⟨none, itemsOf⟩ | ⟨front, back, rfl, before, itemsOf⟩
  · cases itemsOf with
    | cons earlier last =>
        rw [List.append_assoc]
        exact .inl ⟨none, .cons earlier (.star last)⟩
  · cases itemsOf with
    | @cons _ _ inner item earlier last =>
        refine .inr ⟨front, inner ++ (item ++ [.star]), ?_, before, .cons earlier (.star last)⟩
        rw [List.append_assoc, List.cons_append, List.append_assoc]

/-- **The tokens of a stack**: every level that is open, with the parenthesis that opened the next. -/
inductive StackOf : Frame → List Frame → List Token → Prop where
  /-- The outermost level. -/
  | top {frame : Frame} {tokens : List Token} (frameOf : FrameOf frame tokens) :
      StackOf frame [] tokens
  /-- A level inside others. -/
  | nested {frame outer : Frame} {enclosing : List Frame} {front tokens : List Token}
      (around : StackOf outer enclosing front) (frameOf : FrameOf frame tokens) :
      StackOf frame (outer :: enclosing) (front ++ .openGroup :: tokens)

/-- The innermost level may be replaced together with its tokens. -/
theorem StackOf.replace {frame next : Frame} {enclosing : List Frame} {tokens item : List Token}
    (stackOf : StackOf frame enclosing tokens)
    (level : ∀ {tokens}, FrameOf frame tokens → FrameOf next (tokens ++ item)) :
    StackOf next enclosing (tokens ++ item) := by
  cases stackOf with
  | top frameOf => exact .top (level frameOf)
  | nested around frameOf =>
      rw [List.append_assoc, List.cons_append]
      exact .nested around (level frameOf)

/-- **A step** keeps the tokens of the stack. -/
theorem StackOf.step {stack next : Stack} {tokens : List Token} {token : Token}
    (stackOf : StackOf stack.current stack.enclosing tokens)
    (step : stack.step token = some next) :
    StackOf next.current next.enclosing (tokens ++ [token]) := by
  obtain ⟨frame, enclosing⟩ := stack
  cases token with
  | atom words =>
      obtain rfl := Option.some.inj step
      exact stackOf.replace fun frameOf => frameOf.push (.atom words)
  | openGroup =>
      obtain rfl := Option.some.inj step
      exact .nested stackOf (.inl ⟨rfl, .nil⟩)
  -- the level that ends becomes an item of the one around it
  | closeGroup =>
      cases stackOf with
      | top frameOf => simp [Stack.step] at step
      | nested around frameOf =>
          obtain rfl := Option.some.inj step
          rw [List.append_assoc, List.cons_append]
          exact around.replace fun outerOf => outerOf.push (.group frameOf.isPattern)
  | bar =>
      obtain rfl := Option.some.inj step
      exact stackOf.replace fun frameOf => .inr ⟨_, [], rfl, frameOf.isPattern, .nil⟩
  -- the grammar takes the last item apart, because the star belongs to it alone
  | star =>
      obtain ⟨finished, items⟩ := frame
      cases items with
      | nil => simp [Stack.step] at step
      | cons words items =>
          obtain rfl := Option.some.inj step
          exact stackOf.replace FrameOf.star

/-- **A run** keeps the tokens of the stack. -/
theorem StackOf.run {stack last : Stack} {front tokens : List Token}
    (stackOf : StackOf stack.current stack.enclosing front)
    (run : stack.run tokens = some last) :
    StackOf last.current last.enclosing (front ++ tokens) := by
  induction tokens generalizing stack front with
  | nil =>
      obtain rfl : stack = last := Option.some.inj run
      rwa [List.append_nil]
  | cons token tokens ih =>
      rw [Stack.run_cons, Option.bind_eq_some_iff] at run
      obtain ⟨next, step, run⟩ := run
      rw [← List.singleton_append, ← List.append_assoc]
      exact ih (stackOf.step step) run

/-- **Evaluation decides the grammar.** -/
theorem evaluate_eq_some_iff {tokens : List Token} {words : Language Char} :
    evaluate tokens = some words ↔ IsPattern tokens words := by
  constructor
  · intro evaluated
    obtain ⟨last, run, finish⟩ := Option.bind_eq_some_iff.1 evaluated
    have fresh : StackOf Stack.start.current Stack.start.enclosing [] := .top (.inl ⟨rfl, .nil⟩)
    have stackOf : StackOf last.current last.enclosing tokens := fresh.run run
    obtain ⟨frame, enclosing⟩ := last
    -- at the end no level is open, so all tokens are those of the outermost one
    cases stackOf with
    | top frameOf =>
        obtain rfl := Option.some.inj finish
        exact frameOf.isPattern
    | nested around frameOf => simp [Stack.finish] at finish
  · intro isPattern
    obtain ⟨frame, value, run⟩ := isPattern.run []
    rw [evaluate, Stack.start, run, Option.bind_some, Stack.finish, value]

/-- Tokens stand for at most one language. -/
theorem IsPattern.unique {tokens : List Token} {left right : Language Char}
    (first : IsPattern tokens left) (second : IsPattern tokens right) : left = right := by
  rw [← evaluate_eq_some_iff] at first second
  exact Option.some.inj (first.symm.trans second)

/-- The opening parenthesis. -/
def Token.isOpen : Token → Bool
  | .openGroup => true
  | _ => false

/-- The closing parenthesis. -/
def Token.isClose : Token → Bool
  | .closeGroup => true
  | _ => false

/-- A token opens a level, closes one, or stays on its level. -/
theorem Stack.length_step {stack next : Stack} {token : Token}
    (step : stack.step token = some next) :
    next.enclosing.length + [token].countP Token.isClose =
      stack.enclosing.length + [token].countP Token.isOpen := by
  obtain ⟨frame, enclosing⟩ := stack
  cases token with
  | atom | openGroup | bar =>
      obtain rfl := Option.some.inj step
      rfl
  | closeGroup =>
      cases enclosing with
      | nil => exact nomatch step
      | cons outer enclosing =>
          obtain rfl := Option.some.inj step
          rfl
  | star =>
      obtain ⟨finished, items⟩ := frame
      cases items with
      | nil => exact nomatch step
      | cons words items =>
          obtain rfl := Option.some.inj step
          rfl

/-- The levels of a stack count the groups that are open. -/
theorem Stack.length_run {stack last : Stack} {tokens : List Token}
    (run : stack.run tokens = some last) :
    last.enclosing.length + tokens.countP Token.isClose =
      stack.enclosing.length + tokens.countP Token.isOpen := by
  induction tokens generalizing stack with
  | nil =>
      obtain rfl : stack = last := Option.some.inj run
      rfl
  | cons token tokens ih =>
      rw [Stack.run_cons, Option.bind_eq_some_iff] at run
      obtain ⟨next, step, run⟩ := run
      have one := Stack.length_step step
      have rest := ih run
      rw [← List.singleton_append, List.countP_append, List.countP_append]
      omega

/-- **The groups of a pattern are closed.** -/
theorem IsPattern.balanced {tokens : List Token} {words : Language Char}
    (isPattern : IsPattern tokens words) :
    tokens.countP Token.isOpen = tokens.countP Token.isClose := by
  obtain ⟨frame, -, run⟩ := isPattern.run []
  have levels := Stack.length_run run
  simp only [List.length_nil, Nat.zero_add] at levels
  exact levels.symm

/-- **A text has at most one meaning.** -/
theorem Denotes.unique {meaning : Option (Text → Language Char)} {text : Text}
    {left right : Language Char} (first : Denotes meaning text left)
    (second : Denotes meaning text right) : left = right := by
  obtain ⟨tokens, reads, isPattern⟩ := first
  obtain ⟨others, othersRead, othersPattern⟩ := second
  obtain rfl := reads.unique othersRead
  exact isPattern.unique othersPattern

end Lexer.Dialect
