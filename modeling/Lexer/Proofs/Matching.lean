import Lexer.Proofs.Automaton.Soundness
import Lexer.Proofs.Pattern.Parsing

/-! # Matching

What a compiled pattern matches is what the dialect says.  Parsing gives a tree of the language that the
dialect gives to the text, reduction keeps that language, the construction builds an automaton of it, and
following all nodes in parallel finds the longest start of an input that is in it. -/

namespace Lexer.Automaton

open Dialect

/-- A pattern compiles exactly if it has a tree that is not nested too deep, from which the automaton is
built. -/
theorem compile_eq_ok_iff {pattern : Text} {automaton : Automaton} :
    compile pattern = .ok automaton ↔ ∃ tree, Pattern.ofSymbols (Symbol.scan pattern) = .ok tree ∧
      Pattern.tooDeep tree = none ∧ tree.reduce.automaton = automaton := by
  rw [compile]
  constructor
  · intro compiled
    cases parsed : Pattern.parse pattern with
    | error fault =>
        rw [parsed] at compiled
        exact nomatch compiled
    | ok tree =>
        rw [parsed] at compiled
        obtain ⟨read, shallow⟩ := Pattern.parse_eq_ok_iff.1 parsed
        exact ⟨tree, read, shallow, Except.ok.inj compiled⟩
  · rintro ⟨tree, read, shallow, rfl⟩
    rw [Pattern.parse_eq_ok_iff.2 ⟨read, shallow⟩]
    rfl

/-- **A compiled automaton** is sound. -/
theorem sound_of_compile {pattern : Text} {automaton : Automaton}
    (compiled : compile pattern = .ok automaton) : automaton.Sound := by
  obtain ⟨tree, -, -, rfl⟩ := compile_eq_ok_iff.1 compiled
  exact Pattern.sound_automaton tree

/-- **A compiled automaton** has the language that the dialect gives to the pattern. -/
theorem denotes_of_compile {pattern : Text} {automaton : Automaton}
    (compiled : compile pattern = .ok automaton) : Denotes none pattern automaton.language := by
  obtain ⟨tree, read, -, rfl⟩ := compile_eq_ok_iff.1 compiled
  rw [Pattern.language_automaton]
  exact Pattern.exists_ofSymbols_iff.1 ⟨tree, read, rfl⟩

/-- What a compiled automaton accepts is its language. -/
theorem accepts_iff_mem_language {pattern input : Text} {automaton : Automaton}
    (compiled : compile pattern = .ok automaton) :
    automaton.accepts input = true ↔ input ∈ automaton.language :=
  (sound_of_compile compiled).sets.accepts_iff input

/-- **Matching.**  A pattern that compiles has one meaning in the dialect.  On every input, the longest
match is the longest start of the input among the words of that meaning, there is none if no start is
among them, and the whole input is accepted exactly if it is among them. -/
theorem compile_matches {pattern : Text} {automaton : Automaton}
    (compiled : compile pattern = .ok automaton) :
    ∃ words, (∀ other, Denotes none pattern other ↔ other = words) ∧ ∀ input,
      (∀ result, automaton.longest input = result ↔ LongestStart words input result) ∧
      (automaton.accepts input = true ↔ input ∈ words) := by
  have denotes := denotes_of_compile compiled
  refine ⟨automaton.language, fun other => ?_, fun input => ?_⟩
  · constructor
    · intro meant
      exact meant.unique denotes
    · rintro rfl
      exact denotes
  · have longest := longestStart_longest (sound_of_compile compiled).sets input
    refine ⟨fun result => ?_, accepts_iff_mem_language compiled⟩
    constructor
    · rintro rfl
      exact longest
    · intro found
      exact longest.unique found

/-- An alternation with the empty text, any number of times, in front of a letter of two bytes. -/
theorem compile_matches_repeated :
    ∃ automaton, compile ['(', 'a', '|', '$', ')', '*', 'č'] = .ok automaton ∧
      ∃ words, (∀ other, Denotes none ['(', 'a', '|', '$', ')', '*', 'č'] other ↔ other = words) ∧
        ∀ input, (∀ result, automaton.longest input = result ↔ LongestStart words input result) ∧
          (automaton.accepts input = true ↔ input ∈ words) :=
  ⟨_, rfl, compile_matches rfl⟩

end Lexer.Automaton
