import Lexer.CharSet
import Lexer.Text.Basic
import Mathlib.Computability.Language
import Mathlib.Data.Char
import Mathlib.Data.List.Basic

/-! # Membership in sets of characters

A set is searched by bisection, which is right as long as its ranges are in order.  **The local check
suffices**: if every range ends before its neighbour starts, it ends before every later range starts.
So in a well-formed set bisection finds a character exactly if some range holds it.  **Sets that are
built** from ranges in any order are well formed and hold the characters of those ranges, since two
ranges are joined only where no code point lies between them. -/

namespace Lexer

namespace CharRange

/-- Characters are in the order of their code points. -/
theorem le_iff_toNat_le {c d : Char} : c ≤ d ↔ c.toNat ≤ d.toNat := by
  rw [Char.le_def, UInt32.le_iff_toNat_le]
  rfl

/-- Characters are in the strict order of their code points. -/
theorem lt_iff_toNat_lt {c d : Char} : c < d ↔ c.toNat < d.toNat := by
  rw [Char.lt_def, UInt32.lt_iff_toNat_lt]
  rfl

/-- A range holds the characters with code points between those of its ends. -/
theorem holds_iff {range : CharRange} {c : Char} :
    range.Holds c ↔ range.first.toNat ≤ c.toNat ∧ c.toNat ≤ range.last.toNat := by
  rw [Holds, le_iff_toNat_le, le_iff_toNat_le]

/-- **A proper range** has at least one character. -/
def Proper (range : CharRange) : Prop :=
  range.first ≤ range.last

/-- The range of one character holds that character only. -/
@[simp] theorem holds_single {c d : Char} : (single c).Holds d ↔ d = c := by
  rw [single, Holds]
  exact ⟨fun ⟨low, high⟩ => le_antisymm high low, fun same => same ▸ ⟨le_rfl, le_rfl⟩⟩

/-- The range of one character is proper. -/
theorem proper_single (c : Char) : (single c).Proper :=
  le_refl c

/-- A range that touches an earlier one is joined with it without a gap. -/
theorem holds_extend {left right : CharRange} (inOrder : left.first ≤ right.first)
    (touch : left.touches right = true) {c : Char} :
    (left.extend right).Holds c ↔ left.Holds c ∨ right.Holds c := by
  rw [le_iff_toNat_le] at inOrder
  simp only [touches, decide_eq_true_eq] at touch
  simp only [holds_iff, extend]
  split
  · next longer =>
      rw [le_iff_toNat_le] at longer
      omega
  · next shorter =>
      rw [le_iff_toNat_le] at shorter
      omega

/-- The join with a later range is proper. -/
theorem proper_extend {left right : CharRange} (proper : left.Proper) :
    (left.extend right).Proper := by
  rw [Proper, extend]
  split
  · next longer => exact le_trans proper longer
  · exact proper

end CharRange

namespace CharSet

/-! ## (1) Well-formed sets -/

/-- The left range ends before the right one starts. -/
def Before (left right : CharRange) : Prop :=
  left.last < right.first

/-- Neighbours apart put every range before every later one, as no range is empty. -/
theorem pairwise_of_neighboursApart {ranges : List CharRange}
    (proper : ∀ range ∈ ranges, range.Proper) (apart : neighboursApart ranges = true) :
    ranges.Pairwise Before := by
  -- each range is compared with its neighbour only, so the order of the others
  -- comes from the induction
  induction ranges with
  | nil => exact List.Pairwise.nil
  | cons left rest ih =>
      cases rest with
      | nil => exact List.pairwise_singleton _ _
      | cons right rest =>
          simp only [neighboursApart, Bool.and_eq_true, decide_eq_true_eq] at apart
          have later := ih (fun range member => proper range (List.mem_cons_of_mem _ member)) apart.2
          refine List.pairwise_cons.2 ⟨fun range member => ?_, later⟩
          rcases List.mem_cons.1 member with rfl | member
          · exact apart.1
          · -- the neighbour lies in between, and it is not empty
            have next : right.last < range.first := (List.pairwise_cons.1 later).1 range member
            have inside : right.first ≤ right.last := proper right (by simp)
            exact lt_trans (lt_of_lt_of_le apart.1 inside) next

/-- Ranges each before every later one have neighbours apart. -/
theorem neighboursApart_of_pairwise {ranges : List CharRange} (apart : ranges.Pairwise Before) :
    neighboursApart ranges = true := by
  induction ranges with
  | nil => rfl
  | cons left rest ih =>
      cases rest with
      | nil => rfl
      | cons right rest =>
          have ⟨first, later⟩ := List.pairwise_cons.1 apart
          rw [neighboursApart, ih later, Bool.and_true, decide_eq_true_eq]
          exact first right (by simp)

/-- **Well formed** means that no range is empty and that every range ends before every later one
starts. -/
theorem wellFormed_iff {set : CharSet} :
    set.wellFormed = true ↔
      (∀ range ∈ set.ranges.toList, range.Proper) ∧ set.ranges.toList.Pairwise Before := by
  rw [wellFormed, Bool.and_eq_true, List.all_eq_true]
  simp only [decide_eq_true_eq]
  constructor
  · rintro ⟨proper, apart⟩
    exact ⟨proper, pairwise_of_neighboursApart proper apart⟩
  · rintro ⟨proper, apart⟩
    exact ⟨proper, neighboursApart_of_pairwise apart⟩

/-! ## (2) Bisection -/

/-- Of two ranges in an ordered array, the one that comes first ends before the other starts. -/
theorem before_of_lt {ranges : Array CharRange} (apart : ranges.toList.Pairwise Before)
    {i j : Nat} (less : i < j) (inside : j < ranges.size) :
    ranges[i].last < ranges[j].first := by
  have before := List.pairwise_iff_getElem.1 apart i j (by simp; omega) (by simpa using inside) less
  simpa [Before] using before

/-- Of two ranges in an ordered array, the one that comes first does not end later. -/
theorem last_le_last {ranges : Array CharRange} (proper : ∀ range ∈ ranges.toList, range.Proper)
    (apart : ranges.toList.Pairwise Before) {i j : Nat} (le : i ≤ j) (inside : j < ranges.size) :
    ranges[i].last ≤ ranges[j].last := by
  rcases Nat.lt_or_eq_of_le le with less | rfl
  · have own : ranges[j].first ≤ ranges[j].last := proper _ (by simp)
    exact le_trans (le_of_lt (before_of_lt apart less inside)) own
  · exact le_rfl

/-- Of two ranges in an ordered array, the one that comes first does not start later. -/
theorem first_le_first {ranges : Array CharRange} (proper : ∀ range ∈ ranges.toList, range.Proper)
    (apart : ranges.toList.Pairwise Before) {i j : Nat} (le : i ≤ j) (inside : j < ranges.size) :
    ranges[i].first ≤ ranges[j].first := by
  rcases Nat.lt_or_eq_of_le le with less | rfl
  · have own : ranges[i].first ≤ ranges[i].last := proper _ (by simp)
    exact le_trans own (le_of_lt (before_of_lt apart less inside))
  · exact le_rfl

/-- **Bisection** finds a character in ordered ranges exactly if a range between the bounds holds
it. -/
theorem search_eq_true_iff {ranges : Array CharRange}
    (proper : ∀ range ∈ ranges.toList, range.Proper) (apart : ranges.toList.Pairwise Before)
    (c : Char) (low high : Nat) (inside : high ≤ ranges.size) :
    search ranges c low high inside = true ↔
      ∃ (i : Nat) (less : i < high), low ≤ i ∧ ranges[i].Holds c := by
  fun_induction search ranges c low high inside with
  | case1 low high inside nonempty middle range ends ih =>
      -- the middle range ends too early, and so do all in front of it
      rw [ih]
      constructor
      · rintro ⟨i, less, above, holds⟩
        exact ⟨i, less, by omega, holds⟩
      · rintro ⟨i, less, above, holds⟩
        refine ⟨i, less, ?_, holds⟩
        by_contra early
        have short := last_le_last proper apart (Nat.le_of_lt_succ (Nat.lt_of_not_le early)) (by omega)
        exact absurd holds.2 (not_le.2 (lt_of_le_of_lt short ends))
  | case2 low high inside nonempty middle range ends starts ih =>
      -- the middle range starts too late, and so do all behind it
      rw [ih]
      constructor
      · rintro ⟨i, less, above, holds⟩
        exact ⟨i, by omega, above, holds⟩
      · rintro ⟨i, less, above, holds⟩
        refine ⟨i, ?_, above, holds⟩
        by_contra late
        have long := first_le_first proper apart (Nat.le_of_not_lt late) (by omega)
        exact absurd holds.1 (not_le.2 (lt_of_lt_of_le starts long))
  -- the middle range neither ends too early nor starts too late, so it holds the
  -- character
  | case3 low high inside nonempty middle range ends starts =>
      simp only [true_iff]
      exact ⟨middle, by omega, by omega, not_lt.1 starts, not_lt.1 ends⟩
  -- no position is left between the bounds
  | case4 low high inside empty =>
      simp only [Bool.false_eq_true, false_iff, not_exists]
      omega

/-- **Membership**: in a well-formed set bisection finds exactly the members. -/
theorem contains_eq_true_iff {set : CharSet} (wellFormed : set.wellFormed = true) (c : Char) :
    set.contains c = true ↔ set.Member c := by
  have ⟨proper, apart⟩ := wellFormed_iff.1 wellFormed
  rw [contains, search_eq_true_iff proper apart, Member]
  constructor
  · rintro ⟨i, less, -, holds⟩
    exact ⟨_, Array.getElem_mem less, holds⟩
  · rintro ⟨range, member, holds⟩
    obtain ⟨i, less, rfl⟩ := Array.mem_iff_getElem.1 member
    exact ⟨i, less, Nat.zero_le i, holds⟩

/-! ## (3) Sets that are built -/

/-- Ranges in the order of their starts. -/
def InOrder (ranges : List CharRange) : Prop :=
  ranges.Pairwise fun left right => left.first ≤ right.first

/-- A range that takes in the next one stays in order with those behind. -/
theorem InOrder.extend {current next : CharRange} {rest : List CharRange}
    (inOrder : InOrder (current :: next :: rest)) : InOrder (current.extend next :: rest) := by
  have ⟨least, later⟩ := List.pairwise_cons.1 inOrder
  exact List.pairwise_cons.2 ⟨fun range member => least range (List.mem_cons_of_mem next member),
    (List.pairwise_cons.1 later).2⟩

/-- Joining starts where the first range does. -/
theorem first_le_of_mem_joinFrom {current : CharRange} {rest : List CharRange}
    (inOrder : InOrder (current :: rest)) :
    ∀ range ∈ joinFrom current rest, current.first ≤ range.first := by
  induction rest generalizing current with
  | nil => simp [joinFrom]
  | cons next rest ih =>
      have ⟨least, later⟩ := List.pairwise_cons.1 inOrder
      rw [joinFrom]
      split
      · exact ih inOrder.extend
      · intro range member
        rcases List.mem_cons.1 member with rfl | member
        · exact le_rfl
        · exact le_trans (least next (by simp)) (ih later range member)

/-- Joining proper ranges gives proper ranges. -/
theorem proper_joinFrom {current : CharRange} {rest : List CharRange} (first : current.Proper)
    (others : ∀ range ∈ rest, range.Proper) : ∀ range ∈ joinFrom current rest, range.Proper := by
  induction rest generalizing current with
  | nil => simpa [joinFrom] using first
  | cons next rest ih =>
      have later : ∀ range ∈ rest, range.Proper :=
        fun range member => others range (List.mem_cons_of_mem _ member)
      rw [joinFrom]
      split
      · exact ih (CharRange.proper_extend first) later
      · intro range member
        rcases List.mem_cons.1 member with rfl | member
        · exact first
        · exact ih (others next (by simp)) later range member

/-- **Joining** ranges in the order of their starts keeps no two that touch. -/
theorem pairwise_joinFrom {current : CharRange} {rest : List CharRange}
    (inOrder : InOrder (current :: rest)) : (joinFrom current rest).Pairwise Before := by
  induction rest generalizing current with
  | nil => exact List.pairwise_singleton _ _
  | cons next rest ih =>
      have ⟨least, later⟩ := List.pairwise_cons.1 inOrder
      rw [joinFrom]
      split
      · exact ih inOrder.extend
      -- a range that is not joined starts behind the current one with a gap, and those
      -- that come out of the rest start no earlier than it
      · next apart =>
          simp only [CharRange.touches, decide_eq_true_eq, not_le] at apart
          refine List.pairwise_cons.2 ⟨fun range member => ?_, ih later⟩
          have behind := first_le_of_mem_joinFrom later range member
          rw [CharRange.le_iff_toNat_le] at behind
          rw [Before, CharRange.lt_iff_toNat_lt]
          omega

/-- **Joining** ranges in the order of their starts changes no character. -/
theorem exists_holds_joinFrom {current : CharRange} {rest : List CharRange}
    (inOrder : InOrder (current :: rest)) (c : Char) :
    (∃ range ∈ joinFrom current rest, range.Holds c) ↔
      ∃ range ∈ current :: rest, range.Holds c := by
  induction rest generalizing current with
  | nil => simp [joinFrom]
  | cons next rest ih =>
      have ⟨least, later⟩ := List.pairwise_cons.1 inOrder
      rw [joinFrom]
      split
      · next touch =>
          rw [ih inOrder.extend]
          simp only [List.exists_mem_cons_iff, CharRange.holds_extend (least next (by simp)) touch,
            or_assoc]
      · rw [List.exists_mem_cons_iff, ih later, List.exists_mem_cons_iff (a := current)]

/-- The ranges that a set is built from, in the order of their starts. -/
theorem inOrder_mergeSort (ranges : List CharRange) :
    InOrder (ranges.mergeSort fun left right => left.first ≤ right.first) := by
  have sorted := @List.pairwise_mergeSort CharRange (fun left right => left.first ≤ right.first)
    (fun a b c => by simpa using le_trans) (fun a b => by simpa using le_total a.first b.first) ranges
  simpa [InOrder] using sorted

/-- **A set of proper ranges** in any order is well formed. -/
theorem wellFormed_ofRanges {ranges : List CharRange} (proper : ∀ range ∈ ranges, range.Proper) :
    (ofRanges ranges).wellFormed = true := by
  have inOrder := inOrder_mergeSort ranges
  rw [wellFormed_iff, ofRanges]
  split
  · simp
  · next first rest sorted =>
      rw [sorted] at inOrder
      -- sorting keeps the ranges, so they are still proper
      have member : ∀ range ∈ first :: rest, range.Proper := by
        intro range found
        rw [← sorted, List.mem_mergeSort] at found
        exact proper range found
      exact ⟨proper_joinFrom (member first (by simp))
        (fun range found => member range (List.mem_cons_of_mem _ found)), pairwise_joinFrom inOrder⟩

/-- **A set of ranges** in any order has the characters of the ranges. -/
theorem member_ofRanges (ranges : List CharRange) (c : Char) :
    (ofRanges ranges).Member c ↔ ∃ range ∈ ranges, range.Holds c := by
  have inOrder := inOrder_mergeSort ranges
  have members : (∃ range ∈ ranges, range.Holds c) ↔
      ∃ range ∈ ranges.mergeSort fun left right => left.first ≤ right.first, range.Holds c := by
    simp only [List.mem_mergeSort]
  rw [members, ofRanges, Member]
  split
  · next sorted => simp [sorted]
  · next first rest sorted =>
      rw [sorted] at inOrder ⊢
      rw [← exists_holds_joinFrom inOrder]
      simp

/-- The set of one character is well formed. -/
theorem wellFormed_single (c : Char) : (single c).wellFormed = true := by
  simp [wellFormed, single, CharRange.single, neighboursApart]

/-- The set of one character has that character. -/
@[simp] theorem member_single (c d : Char) : (single c).Member d ↔ d = c := by
  simp [single, Member]

/-- The set of some characters is well formed. -/
theorem wellFormed_ofChars (chars : List Char) : (ofChars chars).wellFormed = true := by
  refine wellFormed_ofRanges fun range member => ?_
  obtain ⟨c, -, rfl⟩ := List.mem_map.1 member
  exact CharRange.proper_single c

/-- The set of some characters has those characters. -/
@[simp] theorem member_ofChars (chars : List Char) (c : Char) :
    (ofChars chars).Member c ↔ c ∈ chars := by
  rw [ofChars, member_ofRanges]
  simp

/-- The union of well-formed sets is well formed. -/
theorem wellFormed_union {sets : List CharSet} (each : ∀ set ∈ sets, set.wellFormed = true) :
    (union sets).wellFormed = true := by
  refine wellFormed_ofRanges fun range member => ?_
  obtain ⟨set, found, inside⟩ := List.mem_flatMap.1 member
  exact (wellFormed_iff.1 (each set found)).1 range inside

/-- The union of some sets has the members of each. -/
@[simp] theorem member_union (sets : List CharSet) (c : Char) :
    (union sets).Member c ↔ ∃ set ∈ sets, set.Member c := by
  rw [union, member_ofRanges]
  simp only [List.mem_flatMap, Array.mem_toList_iff, Member]
  constructor
  · rintro ⟨range, ⟨set, found, inside⟩, holds⟩
    exact ⟨set, found, range, inside, holds⟩
  · rintro ⟨set, found, range, inside, holds⟩
    exact ⟨range, ⟨set, found, inside⟩, holds⟩

/-- The only character of a set is its only member. -/
theorem member_of_only? {set : CharSet} {c : Char} (only : set.only? = some c) (d : Char) :
    set.Member d ↔ d = c := by
  unfold only? at only
  split at only
  · next range ranges =>
      split at only
      · next same =>
          have holds : range.Holds d ↔ d = range.first := by
            rw [CharRange.Holds, ← same]
            exact ⟨fun ⟨low, high⟩ => le_antisymm high low, fun eq => eq ▸ ⟨le_rfl, le_rfl⟩⟩
          rw [Member, ← Option.some.inj only, ← holds]
          simp [← Array.mem_toList_iff, ranges]
      · simp at only
  · simp at only

/-- **The language** of a set: its members as texts of one character. -/
def language (set : CharSet) : Language Char :=
  { word | ∃ c, set.Member c ∧ word = [c] }

/-- A word of a set is one of its members. -/
theorem mem_language {set : CharSet} {word : Text} :
    word ∈ set.language ↔ ∃ c, set.Member c ∧ word = [c] :=
  Iff.rfl

/-- The language of the set of one character. -/
@[simp] theorem language_single (c : Char) : (single c).language = {[c]} := by
  ext word
  simp only [mem_language, member_single]
  exact ⟨fun ⟨d, same, word⟩ => same ▸ word, fun word => ⟨c, rfl, word⟩⟩

end CharSet

end Lexer
