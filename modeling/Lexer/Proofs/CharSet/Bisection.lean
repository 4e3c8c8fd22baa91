import Lexer.Proofs.CharSet.Membership

/-! # Bisection and the local check

Bisection compares a character with single ranges: **the side** of a range says whether it ends before the
character, starts behind it, or holds it.  A search by sides can be trusted where the sides ascend, first the
ranges in front, then one that holds the character, then those behind.  The check of a set looks at single
ranges and at neighbours only, but neighbours in order put all ranges in order, and so **the sides of a checked
set ascend for every character**.  Any search that keeps to its contract then finds what bisection finds, the
members. -/

namespace Lexer

/-! ## (1) Sides -/

namespace CharRange

/-- **The side of a range**: where it lies as seen from a character. -/
def side (c : Char) (range : CharRange) : Ordering :=
  if range.last < c then .lt else if c < range.first then .gt else .eq

/-- A range in front of a character ends before it. -/
theorem side_eq_lt_iff {range : CharRange} {c : Char} : range.side c = .lt ↔ range.last < c := by
  rw [side]
  by_cases ends : range.last < c
  · simp [ends]
  · by_cases starts : c < range.first
    · simp [ends, starts]
    · simp [ends, starts]

/-- A proper range behind a character starts behind it. -/
theorem side_eq_gt_iff {range : CharRange} (proper : range.Proper) {c : Char} :
    range.side c = .gt ↔ c < range.first := by
  rw [side]
  by_cases ends : range.last < c
  · -- the two comparisons exclude each other only in a range that is not empty
    have inFront : ¬c < range.first := not_lt.2 (le_of_lt (lt_of_le_of_lt proper ends))
    simp [ends, inFront]
  · by_cases starts : c < range.first
    · simp [ends, starts]
    · simp [ends, starts]

/-- Any other range holds the character. -/
theorem side_eq_eq_iff {range : CharRange} {c : Char} : range.side c = .eq ↔ range.Holds c := by
  rw [side, Holds, ← not_lt, ← not_lt]
  by_cases ends : range.last < c
  · simp [ends]
  · by_cases starts : c < range.first
    · simp [ends, starts]
    · simp [ends, starts]

end CharRange

namespace CharSet

/-- **Ascending sides**: nothing that is in front comes later than anything else, and nothing that is behind
comes earlier. -/
def SidesAscend (sides : List Ordering) : Prop :=
  sides.Pairwise fun left right => (right = .lt → left = .lt) ∧ (left = .gt → right = .gt)

/-- **A search by sides** finds whether some range is on neither side, provided that the sides ascend. -/
def SearchesBySides (search : (CharRange → Ordering) → List CharRange → Bool) : Prop :=
  ∀ (side : CharRange → Ordering) (ranges : List CharRange), SidesAscend (ranges.map side) →
    (search side ranges = true ↔ ∃ range ∈ ranges, side range = .eq)

/-- The sides of ranges in order ascend. -/
theorem sidesAscend_of_pairwise {ranges : List CharRange}
    (proper : ∀ range ∈ ranges, range.Proper) (apart : ranges.Pairwise Before) (c : Char) :
    SidesAscend (ranges.map (CharRange.side c)) := by
  rw [SidesAscend, List.pairwise_map]
  refine apart.imp_of_mem fun {left right} isLeft isRight before => ?_
  rw [CharRange.side_eq_lt_iff, CharRange.side_eq_lt_iff,
    CharRange.side_eq_gt_iff (proper left isLeft), CharRange.side_eq_gt_iff (proper right isRight)]
  constructor
  · intro ends
    exact lt_trans (lt_of_lt_of_le before (proper right isRight)) ends
  · intro starts
    exact lt_trans starts (lt_of_le_of_lt (proper left isLeft) before)

/-! ## (2) The local check -/

/-- Neighbours are apart if each range ends before the one at the next position starts. -/
theorem neighboursApart_iff {ranges : List CharRange} :
    neighboursApart ranges = true ↔ ranges.IsChain Before := by
  induction ranges with
  | nil => simp [neighboursApart]
  | cons left rest ih =>
      cases rest with
      | nil => simp [neighboursApart]
      | cons right rest =>
          rw [neighboursApart, Bool.and_eq_true, decide_eq_true_eq, ih, List.isChain_cons_cons, Before]

/-- **The local check** by positions: no range is empty, and each ends before the next one starts. -/
theorem wellFormed_iff_neighbours {set : CharSet} :
    set.wellFormed = true ↔ (∀ range ∈ set.ranges, range.first ≤ range.last) ∧
      ∀ (i : Nat) (inside : i + 1 < set.ranges.size),
        set.ranges[i].last < set.ranges[i + 1].first := by
  rw [wellFormed, Bool.and_eq_true, neighboursApart_iff, List.isChain_iff_getElem, List.all_eq_true]
  simp only [decide_eq_true_eq, Array.mem_toList_iff, Array.length_toList, Array.getElem_toList, Before]

/-! ## (3) Searching a checked set -/

/-- **A search that keeps to its contract** finds the members of a well-formed set. -/
theorem SearchesBySides.eq_true_iff {search : (CharRange → Ordering) → List CharRange → Bool}
    (searches : SearchesBySides search) {set : CharSet} (wellFormed : set.wellFormed = true)
    (c : Char) : search (CharRange.side c) set.ranges.toList = true ↔ set.Member c := by
  have ⟨proper, apart⟩ := wellFormed_iff.1 wellFormed
  rw [searches _ _ (sidesAscend_of_pairwise proper apart c), Member]
  simp only [CharRange.side_eq_eq_iff, Array.mem_toList_iff]

/-- A scan through all ranges keeps to the contract. -/
theorem searchesBySides_any :
    SearchesBySides fun side ranges => ranges.any fun range => side range = .eq := by
  intro side ranges _
  simp only [List.any_eq_true, decide_eq_true_eq]

/-- **Bisection.**  A set passes the check exactly if no range is empty and each ends before the next one starts.
Then every range ends before all later ones start, and for every character, bisection answers whether a range
holds it; so does any other search by sides that keeps to its contract. -/
theorem contains_iff_holds (set : CharSet) :
    (set.wellFormed = true ↔ (∀ range ∈ set.ranges, range.first ≤ range.last) ∧
      ∀ (i : Nat) (inside : i + 1 < set.ranges.size),
        set.ranges[i].last < set.ranges[i + 1].first) ∧
    (set.wellFormed = true →
      (∀ (i j : Nat) (less : i < j) (inside : j < set.ranges.size),
        set.ranges[i].last < set.ranges[j].first) ∧
      ∀ c, (set.contains c = true ↔ ∃ range ∈ set.ranges, range.first ≤ c ∧ c ≤ range.last) ∧
        ∀ search, SearchesBySides search →
          search (CharRange.side c) set.ranges.toList = set.contains c) := by
  refine ⟨wellFormed_iff_neighbours, fun wellFormed => ⟨fun i j less inside => ?_, fun c => ⟨?_, ?_⟩⟩⟩
  · exact before_of_lt (wellFormed_iff.1 wellFormed).2 less inside
  · exact contains_eq_true_iff wellFormed c
  · intro search searches
    rw [Bool.eq_iff_iff, searches.eq_true_iff wellFormed, contains_eq_true_iff wellFormed]

/-- Three ranges, the last one beyond ASCII: an end of it, a character in a gap, and a scan. -/
theorem contains_iff_holds_gap :
    let set : CharSet := ⟨#[⟨'0', '9'⟩, ⟨'a', 'f'⟩, ⟨'č', 'ž'⟩]⟩
    set.wellFormed = true ∧
      (∀ (i j : Nat) (less : i < j) (inside : j < set.ranges.size),
        set.ranges[i].last < set.ranges[j].first) ∧
      (set.contains 'ž' = true ↔ ∃ range ∈ set.ranges, range.first ≤ 'ž' ∧ 'ž' ≤ range.last) ∧
      (set.contains 'g' = true ↔ ∃ range ∈ set.ranges, range.first ≤ 'g' ∧ 'g' ≤ range.last) ∧
      set.contains 'ž' = true ∧ set.contains 'g' = false ∧
      (set.ranges.toList.any fun range => range.side 'g' = .eq) = set.contains 'g' := by
  intro set
  have checked : set.wellFormed = true := by decide
  have ⟨apart, found⟩ := (contains_iff_holds set).2 checked
  exact ⟨checked, apart, (found 'ž').1, (found 'g').1, by cbv, by cbv,
    (found 'g').2 _ searchesBySides_any⟩

/-- Ranges that are out of order mislead bisection. -/
example : contains ⟨#[⟨'x', 'z'⟩, ⟨'a', 'c'⟩]⟩ 'x' = false := by
  cbv

end CharSet

end Lexer
