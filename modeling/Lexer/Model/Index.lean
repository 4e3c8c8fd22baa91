import Lexer.Text.Basic

/-! # The index of names

The positions of the states by their names, in the order of the names.  Names are compared character
by character, which is also the order of their bytes in UTF-8. -/

namespace Lexer

/-- **An index** of names: entries in ascending order of their names. -/
abbrev Index := List (Text × Nat)

namespace Index

/-- The position of a name. -/
def find? (index : Index) (name : Text) : Option Nat :=
  index.lookup name

/-- A name that the index has. -/
def has (index : Index) (name : Text) : Bool :=
  (index.find? name).isSome

/-- **Insert a name** in order; a name that the index has gets the new position. -/
def insert (name : Text) (position : Nat) : Index → Index
  | [] => [(name, position)]
  | (other, its) :: rest =>
      if name = other then (name, position) :: rest
      else if name < other then (name, position) :: (other, its) :: rest
      else (other, its) :: insert name position rest

/-- Looking for the name that was inserted finds its position. -/
@[simp] theorem find?_insert_self (name : Text) (position : Nat) (index : Index) :
    find? (insert name position index) name = some position := by
  induction index with
  | nil => simp [insert, find?]
  | cons entry rest ih =>
      obtain ⟨other, its⟩ := entry
      simp only [insert]
      split
      · simp [find?]
      · next different =>
          split
          · simp [find?]
          · simpa [find?, List.lookup_cons, beq_eq_false_iff_ne.2 different] using ih

/-- Inserting a name leaves the positions of all others. -/
theorem find?_insert_of_ne {name other : Text} (different : other ≠ name) (position : Nat)
    (index : Index) : find? (insert name position index) other = find? index other := by
  induction index with
  | nil => simp [insert, find?, List.lookup_cons, beq_eq_false_iff_ne.2 different]
  | cons entry rest ih =>
      obtain ⟨first, its⟩ := entry
      simp only [insert]
      split
      · next same =>
          subst same
          simp [find?, List.lookup_cons, beq_eq_false_iff_ne.2 different]
      · split
        · simp [find?, List.lookup_cons, beq_eq_false_iff_ne.2 different]
        · by_cases equal : other = first
          · simp [find?, equal]
          · simpa [find?, List.lookup_cons, beq_eq_false_iff_ne.2 equal] using ih

end Index

end Lexer
