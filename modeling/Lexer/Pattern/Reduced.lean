import Lexer.Pattern.Parser
import Lexer.CharSet

/-! # Reduced patterns

The form of a pattern that automata are built from.  It denotes the same texts as the pattern, with
fewer parts: neighbouring characters of a sequence are one literal, empty texts in a sequence
vanish, an alternation of single characters is one character set, and branches that start with the
same parts share them.  A star over nothing but the empty text becomes optional instead. -/

namespace Lexer

/-- **Reduced patterns.** -/
inductive Reduced where
  /-- The empty text. -/
  | empty
  /-- Some characters in a row. -/
  | literal (text : Text)
  /-- One character of a set. -/
  | oneOf (chars : CharSet)
  /-- A pattern once or not at all. -/
  | optional (body : Reduced)
  /-- A pattern any number of times. -/
  | star (body : Reduced)
  /-- A group of the pattern. -/
  | group (body : Reduced)
  /-- Some parts in a row. -/
  | concat (parts : List Reduced)
  /-- One of some branches. -/
  | alternation (branches : List Reduced)
  deriving Repr

namespace Reduced

mutual

/-- A reduced pattern that denotes no other text than the empty one. -/
def onlyEmpty : Reduced → Bool
  | .empty => true
  | .literal text => text.isEmpty
  | .oneOf _ => false
  | .optional body => body.onlyEmpty
  | .star _ => false
  | .group body => body.onlyEmpty
  | .concat parts => allOnlyEmpty parts
  | .alternation branches => allOnlyEmpty branches

/-- Reduced patterns all of which denote no other text than the empty one. -/
def allOnlyEmpty : List Reduced → Bool
  | [] => true
  | part :: rest => part.onlyEmpty && allOnlyEmpty rest

end

mutual

/-- **Shared parts** are equal and hold no group: every group of a pattern is its own. -/
def shared : Reduced → Reduced → Bool
  | .empty, .empty => true
  | .literal left, .literal right => left = right
  | .oneOf left, .oneOf right => left = right
  | .optional left, .optional right => left.shared right
  | .star left, .star right => left.shared right
  | .concat left, .concat right => allShared left right
  | .alternation left, .alternation right => allShared left right
  | _, _ => false

/-- Lists of pairwise shared parts. -/
def allShared : List Reduced → List Reduced → Bool
  | [], [] => true
  | left :: lefts, right :: rights => left.shared right && allShared lefts rights
  | _, _ => false

end

mutual

/-- Shared parts are equal. -/
theorem eq_of_shared : (left right : Reduced) → left.shared right = true → left = right
  | .empty, right, same => by cases right <;> simp_all [shared]
  | .literal _, right, same => by cases right <;> simp_all [shared]
  | .oneOf _, right, same => by cases right <;> simp_all [shared]
  | .optional left, right, same => by
      cases right <;> simp only [shared, Bool.false_eq_true] at same
      exact congrArg _ (eq_of_shared left _ same)
  | .star left, right, same => by
      cases right <;> simp only [shared, Bool.false_eq_true] at same
      exact congrArg _ (eq_of_shared left _ same)
  | .group _, right, same => by cases right <;> simp [shared] at same
  | .concat left, right, same => by
      cases right <;> simp only [shared, Bool.false_eq_true] at same
      exact congrArg _ (eq_of_allShared left _ same)
  | .alternation left, right, same => by
      cases right <;> simp only [shared, Bool.false_eq_true] at same
      exact congrArg _ (eq_of_allShared left _ same)

/-- Lists of shared parts are equal. -/
theorem eq_of_allShared :
    (lefts rights : List Reduced) → allShared lefts rights = true → lefts = rights
  | [], rights, same => by cases rights <;> simp_all [allShared]
  | left :: lefts, rights, same => by
      cases rights with
      | nil => simp [allShared] at same
      | cons right rights =>
          simp only [allShared, Bool.and_eq_true] at same
          rw [eq_of_shared left right same.1, eq_of_allShared lefts rights same.2]

end

/-! ## Sequences -/

/-- The parts that a part contributes to a sequence around it. -/
def parts : Reduced → List Reduced
  | .empty => []
  | .concat parts => parts
  | part => [part]

/-- Put a part in front of others; a literal joins a literal behind it. -/
def prepend : Reduced → List Reduced → List Reduced
  | .literal left, .literal right :: rest => .literal (left ++ right) :: rest
  | part, rest => part :: rest

/-- **The sequence** of some reduced patterns. -/
def sequence (subs : List Reduced) : Reduced :=
  match (subs.flatMap parts).foldr prepend [] with
  | [] => .empty
  | [part] => part
  | parts => .concat parts

/-! ## Alternations -/

/-- The branches that a branch contributes to an alternation around it. -/
def branches : Reduced → List Reduced
  | .alternation branches => branches
  | branch => [branch]

/-- The character of a literal of one character. -/
def char? : Reduced → Option Char
  | .literal [c] => some c
  | _ => none

/-- The set of a reduced pattern for one character of a set. -/
def chars? : Reduced → Option CharSet
  | .oneOf chars => some chars
  | _ => none

/-- The parts of a sequence of several parts. -/
def parts? : Reduced → Option (List Reduced)
  | .concat parts => some parts
  | _ => none

/-- One character of a set; a set of one character is a literal. -/
def ofSet (chars : CharSet) : Reduced :=
  match chars.only? with
  | some c => .literal [c]
  | none => .oneOf chars

/-- The alternation of branches that share no start. -/
def choice (subs : List Reduced) : Reduced :=
  match subs.flatMap branches with
  | [branch] => branch
  | branches =>
      match branches.mapM char? with
      | some chars => ofSet (CharSet.ofChars chars)
      | none =>
          match branches.mapM chars? with
          | some sets => ofSet (CharSet.union sets)
          | none => .alternation branches

/-- The number of parts at the start of two lists that are shared. -/
def sharedLength : List Reduced → List Reduced → Nat
  | left :: lefts, right :: rights => if left.shared right then sharedLength lefts rights + 1 else 0
  | _, _ => 0

/-- The number of parts that all branches share at their start. -/
def commonLength (first : List Reduced) (others : List (List Reduced)) : Nat :=
  others.foldl (fun length other => min length (sharedLength first other)) first.length

/-- **The alternation** of some reduced patterns: if all branches are sequences that start with the
same parts, those parts come first and an alternation of the remainders follows. -/
def alternative (subs : List Reduced) : Reduced :=
  match (subs.flatMap branches).mapM parts? with
  | some (first :: second :: others) =>
      match commonLength first (second :: others) with
      | 0 => choice subs
      | length =>
          sequence (first.take length ++
            [choice ((first :: second :: others).map fun parts => sequence (parts.drop length))])
  | _ => choice subs

/-- A star; over nothing but the empty text it is optional. -/
def starred (body : Reduced) : Reduced :=
  if body.onlyEmpty then .optional body else .star body

end Reduced

mutual

/-- **The reduced form of an item.** -/
def Item.reduce : Item → Reduced
  | .char c => .literal [c]
  | .blank => .empty
  | .group branches => .group (Reduced.alternative (Pattern.reduceBranches branches))
  | .star operand => Reduced.starred operand.reduce

/-- The reduced forms of some items. -/
def Pattern.reduceItems : List Item → List Reduced
  | [] => []
  | item :: rest => item.reduce :: Pattern.reduceItems rest

/-- The reduced forms of some branches. -/
def Pattern.reduceBranches : List (List Item) → List Reduced
  | [] => []
  | branch :: rest =>
      Reduced.sequence (Pattern.reduceItems branch) :: Pattern.reduceBranches rest

end

/-- **The reduced form of a pattern.** -/
def Pattern.reduce (pattern : Pattern) : Reduced :=
  Reduced.alternative (Pattern.reduceBranches pattern)

end Lexer
