import Lexer.Proofs.Automaton.Soundness

/-! # Operations on automata of any shape

**An automaton recognizes some words** if they are its language, everything that it refers to is a node, and
nothing leads on from its end.  The operations turn automata that recognize words into automata that recognize
the regular combinations of these words.  Nothing else is asked of the operands: they may have cycles of
jumps, nodes that are never reached, or a start that is the end.  It is the end without exit that lets options
and repetitions jump straight to it. -/

namespace Lexer.Automaton

/-! ## (1) Recognized words -/

/-- **An automaton recognizes some words.** -/
structure Recognizes (automaton : Automaton) (words : Language Char) : Prop where
  /-- Everything that is referred to is a node. -/
  inRange : automaton.InRange
  /-- Nothing leads on from the end. -/
  noExit : automaton.NoExit
  /-- The words are those on the paths from the start to the end. -/
  language : automaton.language = words

/-- The automaton of the empty text recognizes it. -/
theorem recognizes_empty : empty.Recognizes 1 :=
  ⟨inRange_fresh 0, noExit_fresh 0, language_fresh 0⟩

namespace Recognizes

variable {automaton left right : Automaton} {words others : Language Char}

/-- A sequence recognizes the product. -/
theorem concat (first : left.Recognizes words) (second : right.Recognizes others) :
    (left.concat right).Recognizes (words * others) where
  inRange := first.inRange.concat second.inRange
  noExit := NoExit.concat first.inRange second.noExit
  language := by rw [language_concat first.inRange, first.language, second.language]

/-- An alternation recognizes the sum. -/
theorem alternate (first : left.Recognizes words) (second : right.Recognizes others) :
    (left.alternate right).Recognizes (words + others) where
  inRange := first.inRange.alternate second.inRange
  noExit := NoExit.alternate first.inRange second.inRange
  language := by rw [language_alternate first.inRange second.inRange, first.language, second.language]

/-- An option recognizes the words and the empty text. -/
theorem optional (recognizes : automaton.Recognizes words) :
    automaton.optional.Recognizes (words + 1) where
  inRange := recognizes.inRange.optional
  noExit := NoExit.optional recognizes.inRange recognizes.noExit
  language := by rw [language_optional recognizes.inRange recognizes.noExit, recognizes.language]

/-- A repetition recognizes the star. -/
theorem star (recognizes : automaton.Recognizes words) :
    automaton.star.Recognizes (KStar.kstar words) where
  inRange := recognizes.inRange.star
  noExit := NoExit.star recognizes.inRange
  language := by rw [language_star recognizes.inRange recognizes.noExit, recognizes.language]

/-- What is recognized is what is accepted, if bisection finds the members of every set. -/
theorem accepts_iff (recognizes : automaton.Recognizes words) (sets : automaton.SetsWellFormed)
    (input : Text) : automaton.accepts input = true ↔ input ∈ words := by
  rw [sets.accepts_iff, recognizes.language]

end Recognizes

/-! ## (2) The regular operations -/

/-- **The regular operations.**  Let two automata be in range and without exit.  Their sequence recognizes the
product of their languages, their alternation the sum, an option the language and the empty text, and a
repetition the star of the language; the empty automaton counts as the empty text.  If their sets are well
formed, these are also the texts that the results accept. -/
theorem regular_operations {left right : Automaton} (leftInRange : left.InRange)
    (leftNoExit : left.NoExit) (rightInRange : right.InRange) (rightNoExit : right.NoExit) :
    empty.Recognizes 1 ∧
      (left.concat right).Recognizes (left.language * right.language) ∧
      (left.alternate right).Recognizes (left.language + right.language) ∧
      left.optional.Recognizes (left.language + 1) ∧
      left.star.Recognizes (KStar.kstar left.language) ∧
      (left.SetsWellFormed → right.SetsWellFormed → ∀ input,
        ((left.concat right).accepts input = true ↔ input ∈ left.language * right.language) ∧
        ((left.alternate right).accepts input = true ↔ input ∈ left.language + right.language) ∧
        (left.optional.accepts input = true ↔ input ∈ left.language + 1) ∧
        (left.star.accepts input = true ↔ input ∈ KStar.kstar left.language)) := by
  have first : left.Recognizes left.language := ⟨leftInRange, leftNoExit, rfl⟩
  have second : right.Recognizes right.language := ⟨rightInRange, rightNoExit, rfl⟩
  refine ⟨recognizes_empty, first.concat second, first.alternate second, first.optional, first.star,
    fun leftSets rightSets input => ⟨?_, ?_, ?_, ?_⟩⟩
  · exact (first.concat second).accepts_iff (leftSets.concat rightSets) input
  · exact (first.alternate second).accepts_iff (leftSets.alternate rightSets) input
  · exact first.optional.accepts_iff leftSets.optional input
  · exact first.star.accepts_iff leftSets.star input

/-- An automaton whose start jumps to itself and which has a node that is never reached, and the empty one. -/
theorem regular_operations_cyclic :
    let left : Automaton :=
      ⟨[⟨0, [0], [⟨.single 'a', 2⟩]⟩, ⟨1, [0, 2], []⟩, ⟨2, [], []⟩], 0, 2⟩
    (left.InRange ∧ left.NoExit) ∧ (empty.InRange ∧ empty.NoExit) ∧
      (left.concat empty).Recognizes (left.language * empty.language) ∧
      (left.alternate empty).Recognizes (left.language + empty.language) ∧
      left.optional.Recognizes (left.language + 1) ∧
      left.star.Recognizes (KStar.kstar left.language) ∧
      (left.star.accepts ['a', 'a'] = true ↔ ['a', 'a'] ∈ KStar.kstar left.language) := by
  intro left
  obtain ⟨leftInRange, leftSets⟩ : left.InRange ∧ left.SetsWellFormed :=
    defect?_eq_none_iff.1 (by decide)
  have leftNoExit : left.NoExit := ⟨fun _ => List.not_mem_nil, fun _ => List.not_mem_nil⟩
  have ⟨emptyRecognizes, concat, alternate, optional, star, accepts⟩ :=
    regular_operations leftInRange leftNoExit (inRange_fresh 0) (noExit_fresh 0)
  exact ⟨⟨leftInRange, leftNoExit⟩, ⟨emptyRecognizes.inRange, emptyRecognizes.noExit⟩, concat,
    alternate, optional, star, (accepts leftSets sound_empty.sets ['a', 'a']).2.2.2⟩

end Lexer.Automaton
