import Lexer.Proofs.Automaton.Closure
import Lexer.Proofs.CharSet.Membership

/-! # The longest match

Following all nodes in parallel decides which starts of the input are accepted: a word is, if **following it**
ends at positions with the end among them.  The words that start the input are followed one after the other, and
the last one that is accepted is the longest.  So much holds of every automaton, whatever its sets are.
If they are well formed, the words that are accepted are those of the language: **the continuations** of some
positions are the words that lead from one of them to the end, and a character of the input turns the
continuations of the current positions into those of the next ones. -/

namespace Lexer

/-- **The longest start** of an input among some words: its length in bytes, or nothing if no start of
the input is among them. -/
def LongestStart (words : Language Char) (input : Text) : Option Nat → Prop
  | none => ∀ start : Text, start <+: input → start ∉ words
  | some length => ∃ start : Text, start <+: input ∧ start ∈ words ∧ start.byteLength = length ∧
      ∀ other : Text, other <+: input → other ∈ words → other.byteLength ≤ length

/-- There is only one longest start. -/
theorem LongestStart.unique {words : Language Char} {input : Text} {left right : Option Nat}
    (first : LongestStart words input left) (second : LongestStart words input right) :
    left = right := by
  cases left with
  | none =>
      cases right with
      | none => rfl
      | some length =>
          obtain ⟨start, isStart, member, -⟩ := second
          exact absurd member (first start isStart)
  | some length =>
      obtain ⟨start, isStart, member, rfl, longest⟩ := first
      cases right with
      | none => exact absurd member (second start isStart)
      | some length =>
          obtain ⟨other, isOther, otherMember, rfl, otherLongest⟩ := second
          exact congrArg some (le_antisymm (otherLongest start isStart member)
            (longest other isOther otherMember))

namespace Text

/-- A start of a text that takes as many bytes is the text. -/
theorem eq_of_isPrefix_of_byteLength_eq {start text : Text} (isStart : start <+: text)
    (same : start.byteLength = text.byteLength) : start = text := by
  obtain ⟨rest, rfl⟩ := isStart
  cases rest with
  | nil => rw [List.append_nil]
  | cons c rest =>
      rw [byteLength_append, byteLength_cons] at same
      have := Char.utf8Size_pos c
      omega

end Text

/-- The longest start of an input is all of it exactly if the input is among the words. -/
theorem LongestStart.eq_byteLength_iff {words : Language Char} {input : Text}
    {result : Option Nat} (longest : LongestStart words input result) :
    result = some input.byteLength ↔ input ∈ words := by
  constructor
  · rintro rfl
    obtain ⟨start, isStart, member, same, -⟩ := longest
    rwa [← Text.eq_of_isPrefix_of_byteLength_eq isStart same]
  · intro member
    -- the input itself is a start, and none is longer
    have whole : LongestStart words input (some input.byteLength) :=
      ⟨input, List.prefix_refl _, member, rfl,
        fun _ isStart _ => Text.byteLength_le_of_isPrefix isStart⟩
    exact longest.unique whole

namespace Automaton

/-! ## (1) Following words -/

/-- **Follow a word** from some positions. -/
def follow (automaton : Automaton) (positions : List Nat) (word : Text) : List Nat :=
  word.foldl (fun positions c => automaton.closure (automaton.advance positions c)) positions

/-- The words that lead from some positions to the end, when they are followed. -/
def followed (automaton : Automaton) (positions : List Nat) : Language Char :=
  { word | automaton.finish ∈ automaton.follow positions word }

/-- The empty text leads to the end if the end is there. -/
theorem nil_mem_followed_iff {automaton : Automaton} {positions : List Nat} :
    [] ∈ automaton.followed positions ↔ automaton.finish ∈ positions :=
  Iff.rfl

/-- A text that starts with a character is followed by following the rest of it behind the character. -/
theorem cons_mem_followed_iff {automaton : Automaton} {positions : List Nat} {c : Char} {word : Text} :
    c :: word ∈ automaton.followed positions ↔
      word ∈ automaton.followed (automaton.closure (automaton.advance positions c)) :=
  Iff.rfl

/-- Nothing is followed from nowhere. -/
theorem not_mem_followed_nil {automaton : Automaton} {word : Text} :
    word ∉ automaton.followed (automaton.closure []) := by
  have nowhere : automaton.closure [] = [] := by rw [closure, closureFrom]
  rw [nowhere]
  induction word with
  | nil => exact List.not_mem_nil
  | cons c word ih =>
      rw [cons_mem_followed_iff, advance, List.flatMap_nil, List.eraseDups_nil, nowhere]
      exact ih

/-- What following some positions further may find: the longest non-empty start of the input among
the words that lead to the end, or else the match that was found before. -/
def Found (words : Language Char) (input : Text) (length : Nat) (best result : Option Nat) : Prop :=
  (∃ start : Text, start <+: input ∧ start ≠ [] ∧ start ∈ words ∧
      result = some (length + start.byteLength) ∧
        ∀ other : Text, other <+: input → other ∈ words → other.byteLength ≤ start.byteLength) ∨
    (∀ start : Text, start <+: input → start ≠ [] → start ∉ words) ∧ result = best

/-- A start of a text that begins with a character is empty, or begins with the character too. -/
theorem isPrefix_cons_iff {c : Char} {start rest : Text} :
    start <+: c :: rest ↔ start = [] ∨ ∃ tail, start = c :: tail ∧ tail <+: rest :=
  List.prefix_cons_iff

/-- Following some positions stops where a character leads nowhere, and else goes on behind it. -/
theorem longestFrom_cons (automaton : Automaton) (positions : List Nat) (length : Nat)
    (best : Option Nat) (c : Char) (rest : Text) :
    automaton.longestFrom positions length best (c :: rest) =
      if automaton.advance positions c = [] then best
      else automaton.longestFrom (automaton.closure (automaton.advance positions c))
        (length + c.utf8Size)
        (if automaton.finish ∈ automaton.closure (automaton.advance positions c) then
          some (length + c.utf8Size) else best) rest := by
  rw [longestFrom]
  cases automaton.advance positions c with
  | nil => rfl
  | cons position reached => rfl

/-- Where a character leads nowhere, only the match that was found before is left. -/
theorem Found.stuck {automaton : Automaton} {positions : List Nat} {c : Char}
    (nowhere : automaton.advance positions c = []) (rest : Text) (length : Nat)
    (best : Option Nat) :
    Found (automaton.followed positions) (c :: rest) length best best := by
  refine Or.inr ⟨fun start isStart some member => ?_, rfl⟩
  obtain ⟨tail, rfl, -⟩ := (isPrefix_cons_iff.1 isStart).resolve_left some
  rw [cons_mem_followed_iff, nowhere] at member
  exact not_mem_followed_nil member

/-- **One character**: what is found behind it, where the match may end with it, is what is found. -/
theorem Found.step {automaton : Automaton} {positions : List Nat} {c : Char} {rest : Text}
    {length : Nat} {best result : Option Nat}
    (behind : Found (automaton.followed (automaton.closure (automaton.advance positions c))) rest
      (length + c.utf8Size)
      (if automaton.finish ∈ automaton.closure (automaton.advance positions c) then
        some (length + c.utf8Size) else best) result) :
    Found (automaton.followed positions) (c :: rest) length best result := by
  rcases behind with ⟨start, isStart, -, member, found, longest⟩ | ⟨none, found⟩
  · -- a longer match is found behind this character
    refine Or.inl ⟨c :: start, isPrefix_cons_iff.2 (.inr ⟨start, rfl, isStart⟩), by simp,
      member, ?_, fun other isOther otherMember => ?_⟩
    · rw [found, Text.byteLength_cons, Nat.add_assoc]
    · rcases isPrefix_cons_iff.1 isOther with rfl | ⟨tail, rfl, isTail⟩
      · exact Nat.zero_le _
      · exact Nat.add_le_add_left (longest tail isTail otherMember) _
  · by_cases ends : automaton.finish ∈ automaton.closure (automaton.advance positions c)
    · -- the match ends with this character
      rw [if_pos ends] at found
      refine Or.inl ⟨[c], isPrefix_cons_iff.2 (.inr ⟨[], rfl, List.nil_prefix⟩), by simp,
        ends, by simpa using found, fun other isOther otherMember => ?_⟩
      rcases isPrefix_cons_iff.1 isOther with rfl | ⟨tail, rfl, isTail⟩
      · exact Nat.zero_le _
      · by_cases empty : tail = []
        · rw [empty]
        · exact absurd otherMember (none tail isTail empty)
    · rw [if_neg ends] at found
      refine Or.inr ⟨fun start isStart some member => ?_, found⟩
      obtain ⟨tail, rfl, isTail⟩ := (isPrefix_cons_iff.1 isStart).resolve_left some
      by_cases empty : tail = []
      · rw [empty] at member
        exact ends member
      · exact none tail isTail empty member

/-- **Following some positions** finds the longest start of the input that leads to the end. -/
theorem found_longestFrom (automaton : Automaton) (positions : List Nat) (length : Nat)
    (best : Option Nat) (input : Text) :
    Found (automaton.followed positions) input length best
      (automaton.longestFrom positions length best input) := by
  -- the induction is on the input; the positions, the length and the best match so
  -- far change with each character
  induction input generalizing positions length best with
  | nil =>
      refine Or.inr ⟨fun start isStart some => absurd (List.prefix_nil.1 isStart) some, ?_⟩
      rw [longestFrom]
  | cons c rest ih =>
      rw [longestFrom_cons]
      split
      · next nowhere => exact .stuck nowhere rest length best
      · exact .step (ih _ _ _)

/-- **The longest match** is the longest start of the input that leads from the start to the end. -/
theorem longestStart_followed (automaton : Automaton) (input : Text) :
    LongestStart (automaton.followed (automaton.closure [automaton.start])) input
      (automaton.longest input) := by
  have atStart : [] ∈ automaton.followed (automaton.closure [automaton.start]) ↔
      automaton.finish ∈ automaton.closure [automaton.start] := nil_mem_followed_iff
  have found : Found (automaton.followed (automaton.closure [automaton.start])) input 0
      (if automaton.finish ∈ automaton.closure [automaton.start] then some 0 else none)
      (automaton.longest input) := found_longestFrom automaton _ 0 _ input
  -- either a start that is not empty was found, or only the empty one may be among
  -- the words, which was looked up in front
  rcases found with ⟨start, isStart, -, member, found, longest⟩ | ⟨none, found⟩
  · rw [found, Nat.zero_add]
    exact ⟨start, isStart, member, rfl, longest⟩
  · rw [found]
    split
    · next ends =>
        refine ⟨[], List.nil_prefix, atStart.2 ends, rfl, fun other isOther member => ?_⟩
        by_cases empty : other = []
        · rw [empty]
          rfl
        · exact absurd member (none other isOther empty)
    · next endless =>
        intro start isStart
        by_cases empty : start = []
        · rw [empty, atStart]
          exact endless
        · exact none start isStart empty

/-- What leads from the start to the end is what is accepted. -/
theorem followed_start (automaton : Automaton) :
    automaton.followed (automaton.closure [automaton.start]) =
      { word | automaton.accepts word = true } := by
  ext word
  show _ ↔ automaton.accepts word = true
  rw [accepts, decide_eq_true_iff]
  exact (longestStart_followed automaton word).eq_byteLength_iff.symm

/-- **The longest match** of any automaton is the longest start of the input that it accepts. -/
theorem longestStart_accepts (automaton : Automaton) (input : Text) :
    LongestStart { word | automaton.accepts word = true } input (automaton.longest input) := by
  rw [← followed_start]
  exact longestStart_followed automaton input

/-- There is no match exactly if no start of the input is accepted. -/
theorem longest_eq_none_iff {automaton : Automaton} {input : Text} :
    automaton.longest input = none ↔
      ∀ start : Text, start <+: input → automaton.accepts start = false := by
  have longest := longestStart_accepts automaton input
  constructor
  · intro none start isStart
    rw [none] at longest
    exact Bool.eq_false_of_not_eq_true (longest start isStart)
  · intro refused
    have nothing : LongestStart { word | automaton.accepts word = true } input none :=
      fun start isStart accepted => Bool.false_ne_true ((refused start isStart).symm.trans accepted)
    exact longest.unique nothing

/-! ## (2) Well-formed sets -/

/-- **Well-formed sets** on all edges, which bisection depends on. -/
def SetsWellFormed (automaton : Automaton) : Prop :=
  ∀ position, ∀ edge ∈ automaton.edgesFrom position, edge.chars.wellFormed = true

/-- **The continuations** of some positions: the words that lead from one of them to the end. -/
def continuations (automaton : Automaton) (positions : List Nat) : Language Char :=
  { word | ∃ position ∈ positions, automaton.Path automaton.finish position word }

/-- A word continues some positions if it leads from one of them to the end. -/
theorem mem_continuations {automaton : Automaton} {positions : List Nat} {word : Text} :
    word ∈ automaton.continuations positions ↔
      ∃ position ∈ positions, automaton.Path automaton.finish position word :=
  Iff.rfl

/-- A closure has the same continuations. -/
theorem continuations_closure (automaton : Automaton) (positions : List Nat) :
    automaton.continuations (automaton.closure positions) = automaton.continuations positions := by
  ext word
  simp only [mem_continuations, mem_closure_iff]
  constructor
  -- a path from where jumps lead is one from where they start
  · rintro ⟨next, ⟨position, member, reaches⟩, path⟩
    exact ⟨position, member, (path_nil_iff.2 reaches).trans path⟩
  · rintro ⟨position, member, path⟩
    exact ⟨position, ⟨position, member, .refl⟩, path⟩

/-- The empty text continues closed positions exactly if the end is among them. -/
theorem nil_mem_continuations_iff {automaton : Automaton} {positions : List Nat}
    (closed : automaton.JumpClosed positions) :
    [] ∈ automaton.continuations positions ↔ automaton.finish ∈ positions := by
  rw [mem_continuations]
  constructor
  · rintro ⟨position, member, path⟩
    exact closed.mem_of_reaches member (path_nil_iff.1 path)
  · intro member
    exact ⟨automaton.finish, member, .stop⟩

/-- The positions that are reached by consuming a character. -/
theorem mem_advance_iff {automaton : Automaton} (sets : automaton.SetsWellFormed)
    {positions : List Nat} {c : Char} {next : Nat} :
    next ∈ automaton.advance positions c ↔ ∃ position ∈ positions,
      ∃ edge ∈ automaton.edgesFrom position, edge.chars.Member c ∧ edge.target = next := by
  simp only [advance, List.mem_eraseDups, List.mem_flatMap, List.mem_map, List.mem_filter]
  constructor
  · rintro ⟨position, member, edge, ⟨leaves, contains⟩, same⟩
    exact ⟨position, member, edge, leaves,
      (CharSet.contains_eq_true_iff (sets position edge leaves) c).1 contains, same⟩
  · rintro ⟨position, member, edge, leaves, holds, same⟩
    exact ⟨position, member, edge,
      ⟨leaves, (CharSet.contains_eq_true_iff (sets position edge leaves) c).2 holds⟩, same⟩

/-- A text that starts with a character continues closed positions exactly if the rest of it continues
the positions that the character leads to. -/
theorem cons_mem_continuations_iff {automaton : Automaton} (sets : automaton.SetsWellFormed)
    {positions : List Nat} (closed : automaton.JumpClosed positions) {c : Char} {word : Text} :
    c :: word ∈ automaton.continuations positions ↔
      word ∈ automaton.continuations (automaton.advance positions c) := by
  simp only [mem_continuations, mem_advance_iff sets]
  constructor
  · rintro ⟨position, member, path⟩
    generalize shape : c :: word = whole at path
    -- jumps stay among the closed positions until the first edge is taken
    induction path with
    | stop => simp at shape
    | jump jump _ ih => exact ih (closed _ member _ jump) shape
    | edge leaves holds path =>
        obtain ⟨rfl, rfl⟩ := List.cons.inj shape
        exact ⟨_, ⟨_, member, _, leaves, holds, rfl⟩, path⟩
  · rintro ⟨next, ⟨position, member, edge, leaves, holds, rfl⟩, path⟩
    exact ⟨position, member, .edge leaves holds path⟩

/-- **Following words** from closed positions finds their continuations. -/
theorem followed_eq_continuations {automaton : Automaton} (sets : automaton.SetsWellFormed)
    {positions : List Nat} (closed : automaton.JumpClosed positions) :
    automaton.followed positions = automaton.continuations positions := by
  ext word
  induction word generalizing positions with
  | nil => rw [nil_mem_followed_iff, nil_mem_continuations_iff closed]
  | cons c word ih =>
      rw [cons_mem_followed_iff, cons_mem_continuations_iff sets closed, ← continuations_closure]
      exact ih (jumpClosed_closure automaton (automaton.advance positions c))

/-- The language of an automaton continues its start. -/
theorem continuations_start (automaton : Automaton) :
    automaton.continuations (automaton.closure [automaton.start]) = automaton.language := by
  rw [continuations_closure]
  ext word
  simp [mem_continuations, mem_language]

/-- **The longest match** is the longest start of the input in the language. -/
theorem longestStart_longest {automaton : Automaton} (sets : automaton.SetsWellFormed)
    (input : Text) : LongestStart automaton.language input (automaton.longest input) := by
  have closed := jumpClosed_closure automaton [automaton.start]
  rw [← continuations_start, ← followed_eq_continuations sets closed]
  exact longestStart_followed automaton input

/-- **What is accepted** is the language, if bisection finds the members of every set. -/
theorem SetsWellFormed.accepts_iff {automaton : Automaton} (sets : automaton.SetsWellFormed)
    (input : Text) : automaton.accepts input = true ↔ input ∈ automaton.language := by
  rw [accepts, decide_eq_true_iff]
  exact (longestStart_longest sets input).eq_byteLength_iff

end Automaton

end Lexer
