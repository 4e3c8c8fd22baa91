import Lexer.Proofs.Matching
import Lexer.Proofs.Pattern.Balance
import Lexer.Proofs.Pattern.Extended

/-! # Accepting patterns

Which patterns compile is decided by their symbols: the parentheses have to be balanced, every star needs an
operand, and the tree that the symbols then have must not be too deep.  **What else is wrong with a pattern** is
one of four causes, each with its own condition on the symbols. -/

namespace Lexer

namespace Pattern

variable {text : Text} {tree : Pattern} {cause : Cause}

/-! ## (1) Parsing -/

/-- **A pattern is parsed** to the tree of its symbols, if that is not too deep. -/
theorem parse_eq_ok_iff_treeOf : parse text = .ok tree ↔
    TreeOf tree (Symbol.scan text) ∧ tree.depth ≤ nestingLimit := by
  rw [parse_eq_ok_iff, ofSymbols_eq_ok_iff, tooDeep_eq_none_iff]

/-- A pattern whose symbols have no tree fails as parsing them does. -/
theorem parse_of_error {fault : Fault} (fails : ofSymbols (Symbol.scan text) = .error fault) :
    parse text = .error fault := by
  rw [parse, fails]
  rfl

/-- A pattern whose tree is too deep fails. -/
theorem exists_parse_of_deep (treeOf : TreeOf tree (Symbol.scan text))
    (deep : nestingLimit < tree.depth) : ∃ span, parse text = .error ⟨.nestedTooDeep, span⟩ := by
  cases found : tooDeep tree with
  | none => exact absurd ((tooDeep_eq_none_iff tree).1 found) (Nat.not_le_of_lt deep)
  | some span =>
      refine ⟨span, ?_⟩
      rw [parse, ofSymbols_eq_ok_iff.2 treeOf]
      simp only [bind, Except.bind, found]

/-- **A defect** makes parsing fail for its cause. -/
theorem Defect.exists_parse (defect : Defect (Symbol.scan text) cause) :
    ∃ span, parse text = .error ⟨cause, span⟩ := by
  cases defect with
  | broken broken =>
      obtain ⟨span, run⟩ := broken.exists_foldlM
      refine ⟨span, parse_of_error ?_⟩
      rw [ofSymbols, run]
      rfl
  | unclosedGroup readable opened =>
      obtain ⟨⟨offset, level, enclosing⟩, run, tracks⟩ := readable.exists_foldlM
      have counted := tracks.groups
      cases enclosing with
      | nil =>
          rw [counted, List.length_nil, Nat.zero_add] at opened
          exact absurd opened (Nat.lt_irrefl _)
      | cons around enclosing =>
          have fails : ofSymbols (Symbol.scan text) =
              .error ⟨.unclosedGroup, ⟨around.1, around.1 + 1⟩⟩ := by
            rw [ofSymbols, run]
            rfl
          exact ⟨_, parse_of_error fails⟩
  | nestedTooDeep treeOf deep => exact exists_parse_of_deep treeOf deep

/-- **A pattern is parsed or has a defect.** -/
theorem exists_parse_or_defect (text : Text) :
    (∃ tree, parse text = .ok tree) ∨ ∃ cause, Defect (Symbol.scan text) cause := by
  rcases foldlM_cases (Symbol.scan text) with ⟨reading, run, readable, tracks⟩ | ⟨cause, _, _, _, broken⟩
  · by_cases whole : (Symbol.scan text).count .closeGroup = (Symbol.scan text).count .openGroup
    · obtain ⟨tree, treeOf⟩ := exists_treeOf_iff.2 (balanced_and_starred_iff.2 ⟨readable, whole⟩)
      by_cases shallow : tree.depth ≤ nestingLimit
      · exact .inl ⟨tree, parse_eq_ok_iff_treeOf.2 ⟨treeOf, shallow⟩⟩
      · exact .inr ⟨_, .nestedTooDeep treeOf (Nat.lt_of_not_le shallow)⟩
    · have most := readable.starts _ (List.prefix_refl _)
      exact .inr ⟨_, .unclosedGroup readable (Nat.lt_of_le_of_ne most whole)⟩
  · exact .inr ⟨cause, .broken broken⟩

/-- **Parsing fails for a cause** exactly if the symbols have that defect. -/
theorem exists_parse_error_iff :
    (∃ span, parse text = .error ⟨cause, span⟩) ↔ Defect (Symbol.scan text) cause := by
  constructor
  · rintro ⟨span, fails⟩
    rcases exists_parse_or_defect text with ⟨tree, parsed⟩ | ⟨other, defect⟩
    · cases fails.symm.trans parsed
    · obtain ⟨span', fails'⟩ := defect.exists_parse
      cases fails.symm.trans fails'
      exact defect
  · exact Defect.exists_parse

end Pattern

namespace Automaton

open Pattern (Balanced Starred TreeOf Construct)

/-! ## (2) Compiling -/

/-- Compiling fails exactly if parsing does. -/
theorem compile_eq_error_iff {text : Text} {fault : Pattern.Fault} :
    compile text = .error fault ↔ Pattern.parse text = .error fault := by
  rw [compile, Except.map_eq_error_iff]

/-- **Patterns that are accepted.**  The symbols of a text are its characters, of which those behind a backslash
stand for themselves.  A pattern compiles exactly if its parentheses are balanced, every star has an operand in
front of it, and no path of the tree of its symbols has more than 250 stars, groups, empty texts, alternations
and sequences of several items.  Balanced and starred symbols have one tree, and the automaton is built from
it.  Any other pattern fails as a malformed one, for the cause that its defect is.  And the extended form of the
pattern is read as the symbols that it was written from, and never as another construct. -/
theorem compile_accepts (text : Text) :
    let symbols := Symbol.scan text
    Dialect.Reads none text (symbols.map Symbol.token) ∧
    ((∃ automaton, compile text = .ok automaton) ↔
      Balanced symbols ∧ Starred symbols ∧ ∀ tree, TreeOf tree symbols → tree.depth ≤ 250) ∧
    (Balanced symbols ∧ Starred symbols → ∃ tree, TreeOf tree symbols ∧
      (∀ other, TreeOf other symbols → other = tree) ∧
      ∀ automaton, compile text = .ok automaton → tree.reduce.automaton = automaton) ∧
    (∀ cause, (∃ span, compile text = .error ⟨cause, span⟩) ↔ Pattern.Defect symbols cause) ∧
    Construct.read (Pattern.extended symbols) = symbols.map .symbol := by
  intro symbols
  refine ⟨Symbol.reads_scan text, ⟨?_, ?_⟩, ?_, ?_, Pattern.read_extended symbols⟩
  · rintro ⟨automaton, compiled⟩
    obtain ⟨tree, parsed, -⟩ := Except.map_eq_ok_iff.1 compiled
    obtain ⟨treeOf, shallow⟩ := Pattern.parse_eq_ok_iff_treeOf.1 parsed
    obtain ⟨balanced, starred⟩ := Pattern.exists_treeOf_iff.1 ⟨tree, treeOf⟩
    exact ⟨balanced, starred, fun other otherOf => otherOf.unique treeOf ▸ shallow⟩
  · rintro ⟨balanced, starred, shallow⟩
    obtain ⟨tree, treeOf⟩ := Pattern.exists_treeOf_iff.2 ⟨balanced, starred⟩
    have parsed := Pattern.parse_eq_ok_iff_treeOf.2 ⟨treeOf, shallow tree treeOf⟩
    exact ⟨_, Except.map_eq_ok_iff.2 ⟨tree, parsed, rfl⟩⟩
  · intro conditions
    obtain ⟨tree, treeOf⟩ := Pattern.exists_treeOf_iff.2 conditions
    refine ⟨tree, treeOf, fun other otherOf => otherOf.unique treeOf, fun automaton compiled => ?_⟩
    obtain ⟨parsedTree, parsed, built⟩ := Except.map_eq_ok_iff.1 compiled
    obtain rfl := (Pattern.parse_eq_ok_iff_treeOf.1 parsed).1.unique treeOf
    exact built
  · intro cause
    simp only [compile_eq_error_iff]
    exact Pattern.exists_parse_error_iff

end Automaton

end Lexer
