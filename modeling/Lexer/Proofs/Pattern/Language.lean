import Lexer.Pattern.Reduced
import Lexer.Proofs.CharSet.Membership
import Mathlib.Computability.Language

/-! # The languages of patterns

**The language** of a pattern is the sum of the languages of its branches, that of a branch is the
product of the languages of its items, and a star is the Kleene star.  A reduced pattern has a language
in the same way.  A reduced pattern is **proper** if its sets are well formed and no alternation is
empty; all that reduction gives are. -/

namespace Lexer

open Computability

mutual

/-- The language of an item. -/
def Item.language : Item → Language Char
  | .char c => {[c]}
  | .blank => 1
  | .group branches => Pattern.language branches
  | .star operand => operand.language∗

/-- The language of a sequence of items. -/
def Pattern.sequenceLanguage : List Item → Language Char
  | [] => 1
  | item :: rest => item.language * Pattern.sequenceLanguage rest

/-- **The language of a pattern**, given by its branches. -/
def Pattern.language : List (List Item) → Language Char
  | [] => 0
  | branch :: rest => Pattern.sequenceLanguage branch + Pattern.language rest

end

/-- The language of a sequence is the product of those of its items. -/
theorem Pattern.sequenceLanguage_eq (items : List Item) :
    Pattern.sequenceLanguage items = (items.map Item.language).prod := by
  induction items with
  | nil => rw [Pattern.sequenceLanguage, List.map_nil, List.prod_nil]
  | cons item rest ih => rw [Pattern.sequenceLanguage, List.map_cons, List.prod_cons, ih]

/-- The language of a pattern is the sum of those of its branches. -/
theorem Pattern.language_eq (branches : List (List Item)) :
    Pattern.language branches = (branches.map Pattern.sequenceLanguage).sum := by
  induction branches with
  | nil => rw [Pattern.language, List.map_nil, List.sum_nil]
  | cons branch rest ih => rw [Pattern.language, List.map_cons, List.sum_cons, ih]

/-- The language of one text is the product of those of its parts. -/
theorem Pattern.singleton_append (left right : Text) :
    ({left ++ right} : Language Char) = {left} * {right} := by
  ext word
  rw [Language.mem_mul]
  constructor
  · rintro rfl
    exact ⟨left, rfl, right, rfl, rfl⟩
  · rintro ⟨first, rfl, second, rfl, same⟩
    exact same.symm

namespace Reduced

mutual

/-- **The language of a reduced pattern.** -/
def language : Reduced → Language Char
  | .empty => 1
  | .literal text => {text}
  | .oneOf chars => chars.language
  | .optional body => body.language + 1
  | .star body => body.language∗
  | .group body => body.language
  | .concat parts => product parts
  | .alternation branches => sum branches

/-- The product of the languages of some parts. -/
def product : List Reduced → Language Char
  | [] => 1
  | part :: rest => part.language * product rest

/-- The sum of the languages of some branches. -/
def sum : List Reduced → Language Char
  | [] => 0
  | branch :: rest => branch.language + sum rest

end

/-- Products along a concatenation. -/
@[simp] theorem product_append (left right : List Reduced) :
    product (left ++ right) = product left * product right := by
  induction left with
  | nil => rw [List.nil_append, product, one_mul]
  | cons part left ih => rw [List.cons_append, product, product, ih, mul_assoc]

/-- Sums along a concatenation. -/
@[simp] theorem sum_append (left right : List Reduced) :
    sum (left ++ right) = sum left + sum right := by
  induction left with
  | nil => rw [List.nil_append, sum, zero_add]
  | cons branch left ih => rw [List.cons_append, sum, sum, ih, add_assoc]

/-- The product of one part. -/
@[simp] theorem product_singleton (part : Reduced) : product [part] = part.language := by
  rw [product, product, mul_one]

/-- The sum of one branch. -/
@[simp] theorem sum_singleton (branch : Reduced) : sum [branch] = branch.language := by
  rw [sum, sum, add_zero]

/-- A word is in a sum if it is in the language of a branch. -/
theorem mem_sum {branches : List Reduced} {word : Text} :
    word ∈ sum branches ↔ ∃ branch ∈ branches, word ∈ branch.language := by
  induction branches with
  | nil => simp [sum, Language.notMem_zero]
  | cons branch rest ih => rw [sum, Language.mem_add, ih, List.exists_mem_cons_iff]

mutual

/-- **Proper** reduced patterns: their sets are well formed and their alternations have branches. -/
def Proper : Reduced → Prop
  | .empty | .literal _ => True
  | .oneOf chars => chars.wellFormed = true
  | .optional body => body.Proper
  | .star body => body.Proper
  | .group body => body.Proper
  | .concat parts => AllProper parts
  | .alternation branches => branches ≠ [] ∧ AllProper branches

/-- Reduced patterns all of which are proper. -/
def AllProper : List Reduced → Prop
  | [] => True
  | part :: rest => part.Proper ∧ AllProper rest

end

/-- All are proper if each one is. -/
theorem allProper_iff {parts : List Reduced} :
    AllProper parts ↔ ∀ part ∈ parts, part.Proper := by
  induction parts with
  | nil => simp [AllProper]
  | cons part rest ih => rw [AllProper, ih, List.forall_mem_cons]

end Reduced

end Lexer
