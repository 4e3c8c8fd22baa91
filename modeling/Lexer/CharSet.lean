/-! # Character sets

The characters that one edge of an automaton consumes, as a list of inclusive ranges.  A set is
**well formed** if no range is empty and every range ends before the next one starts; membership is
then decided by bisection.  Sets that are built here always are, sets that are loaded are checked
first. -/

namespace Lexer

/-- **A range of characters**, both ends included. -/
structure CharRange where
  /-- The first character of the range. -/
  first : Char
  /-- The last character of the range. -/
  last : Char
  deriving DecidableEq, Repr

namespace CharRange

/-- A character lies in a range between its ends. -/
def Holds (range : CharRange) (c : Char) : Prop :=
  range.first ≤ c ∧ c ≤ range.last

instance (range : CharRange) (c : Char) : Decidable (range.Holds c) :=
  inferInstanceAs (Decidable (_ ∧ _))

/-- The range of one character. -/
def single (c : Char) : CharRange :=
  ⟨c, c⟩

/-- Two ranges in order of their starts touch if no code point lies between them. -/
def touches (left right : CharRange) : Bool :=
  right.first.toNat ≤ left.last.toNat + 1

/-- The range from the start of the left one to the later of the two ends. -/
def extend (left right : CharRange) : CharRange :=
  ⟨left.first, if left.last ≤ right.last then right.last else left.last⟩

end CharRange

/-- **A set of characters** as inclusive ranges. -/
structure CharSet where
  /-- The ranges, in ascending order in a well-formed set. -/
  ranges : Array CharRange
  deriving DecidableEq, Repr

namespace CharSet

/-- A character is a member if some range holds it. -/
def Member (set : CharSet) (c : Char) : Prop :=
  ∃ range ∈ set.ranges, range.Holds c

/-- **Bisection**: search the ranges at the positions from `low` up to `high`. -/
def search (ranges : Array CharRange) (c : Char) (low high : Nat)
    (inside : high ≤ ranges.size) : Bool :=
  if nonempty : low < high then
    let middle := low + (high - low) / 2
    let range := ranges[middle]
    if range.last < c then search ranges c (middle + 1) high inside
    else if c < range.first then search ranges c low middle (by omega)
    else true
  else false
  termination_by high - low

/-- **Membership** by bisection over all ranges. -/
def contains (set : CharSet) (c : Char) : Bool :=
  search set.ranges c 0 set.ranges.size (Nat.le_refl _)

/-- Every range ends before its neighbour starts. -/
def neighboursApart : List CharRange → Bool
  | left :: right :: rest => left.last < right.first && neighboursApart (right :: rest)
  | _ => true

/-- **Well formed**: no range is empty, and neighbours are in ascending order and apart. -/
def wellFormed (set : CharSet) : Bool :=
  set.ranges.toList.all (fun range => range.first ≤ range.last) &&
    neighboursApart set.ranges.toList

/-- Join ranges that touch; the ranges come in order of their starts. -/
def joinFrom (current : CharRange) : List CharRange → List CharRange
  | [] => [current]
  | range :: rest =>
      if current.touches range then joinFrom (current.extend range) rest
      else current :: joinFrom range rest

/-- The least ranges for the characters of some ranges in any order. -/
def ofRanges (ranges : List CharRange) : CharSet :=
  match ranges.mergeSort (fun left right => left.first ≤ right.first) with
  | [] => ⟨#[]⟩
  | first :: rest => ⟨(joinFrom first rest).toArray⟩

/-- The set of one character. -/
def single (c : Char) : CharSet :=
  ⟨#[CharRange.single c]⟩

/-- The set of some characters. -/
def ofChars (chars : List Char) : CharSet :=
  ofRanges (chars.map CharRange.single)

/-- The union of some sets. -/
def union (sets : List CharSet) : CharSet :=
  ofRanges (sets.flatMap fun set => set.ranges.toList)

/-- The only character of a set that has one range of one character. -/
def only? (set : CharSet) : Option Char :=
  match set.ranges.toList with
  | [range] => if range.first = range.last then some range.first else none
  | _ => none

end CharSet

end Lexer
