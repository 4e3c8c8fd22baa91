import Lexer.Proofs.Pattern.Language
import Mathlib.Algebra.Order.Kleene
import Mathlib.Order.CompletePartialOrder

/-! # Reduction keeps the language

Each step of a reduction has one lemma on languages and one on being proper.  A sequence joins literals
and drops empty texts, which is a matter of associativity; an alternation of characters or of sets
becomes one set; an alternation of sequences with a common start is distributivity; a star over nothing
but the empty text is that text.  By recursion over the tree, **a pattern and its reduced form have the
same language**. -/

namespace Lexer

open Computability

namespace Reduced

/-! ## (1) Sequences -/

/-- The parts of a part have its language as their product. -/
theorem product_parts (part : Reduced) : product part.parts = part.language := by
  cases part with
  | empty => rw [parts, product, language]
  | concat subs => rw [parts, language]
  | _ => exact product_singleton _

/-- A part in front of others is a factor. -/
theorem product_prepend (part : Reduced) (rest : List Reduced) :
    product (prepend part rest) = part.language * product rest := by
  unfold prepend
  split
  · next left right rest =>
      rw [product, product, language, language, language, ← mul_assoc, Pattern.singleton_append]
  · rw [product]

/-- Joining the literals of a sequence keeps the product. -/
theorem product_foldr_prepend (subs : List Reduced) :
    product (subs.foldr prepend []) = product subs := by
  induction subs with
  | nil => rfl
  | cons part rest ih => rw [List.foldr_cons, product_prepend, ih, product]

/-- The parts of some parts keep the product. -/
theorem product_flatMap_parts (subs : List Reduced) :
    product (subs.flatMap parts) = product subs := by
  induction subs with
  | nil => rfl
  | cons part rest ih => rw [List.flatMap_cons, product_append, product_parts, ih, product]

/-- **A sequence** has the product of the languages. -/
theorem language_sequence (subs : List Reduced) : (sequence subs).language = product subs := by
  rw [← product_flatMap_parts, ← product_foldr_prepend, sequence]
  split
  · next none => rw [none, language, product]
  · next part one => rw [one, product_singleton]
  · rw [language]

/-- The parts of a proper part are proper. -/
theorem proper_parts {part : Reduced} (proper : part.Proper) : ∀ sub ∈ part.parts, sub.Proper := by
  cases part with
  | empty => simp [parts]
  | concat subs =>
      rw [Proper, allProper_iff] at proper
      exact proper
  | _ =>
      intro sub member
      rw [List.mem_singleton.1 member]
      exact proper

/-- A proper part in front of proper parts gives proper parts. -/
theorem proper_prepend {part : Reduced} {rest : List Reduced} (first : part.Proper)
    (others : ∀ sub ∈ rest, sub.Proper) : ∀ sub ∈ prepend part rest, sub.Proper := by
  unfold prepend
  split
  · intro sub member
    rcases List.mem_cons.1 member with rfl | member
    · rw [Proper]
      trivial
    · exact others sub (List.mem_cons_of_mem _ member)
  · exact List.forall_mem_cons.2 ⟨first, others⟩

/-- **A sequence** of proper parts is proper. -/
theorem proper_sequence {subs : List Reduced} (proper : ∀ sub ∈ subs, sub.Proper) :
    (sequence subs).Proper := by
  have flat : ∀ sub ∈ subs.flatMap parts, sub.Proper := by
    intro sub member
    obtain ⟨part, found, inside⟩ := List.mem_flatMap.1 member
    exact proper_parts (proper part found) sub inside
  -- flattening and joining keep what the parts have
  have joined : ∀ sub ∈ (subs.flatMap parts).foldr prepend [], sub.Proper := by
    generalize subs.flatMap parts = flattened at flat
    induction flattened with
    | nil => simp
    | cons part rest ih =>
        have ⟨first, others⟩ := List.forall_mem_cons.1 flat
        exact proper_prepend first (ih others)
  rw [sequence]
  split
  · rw [Proper]
    trivial
  · next part one => exact joined part (by rw [one]; simp)
  · rw [Proper, allProper_iff]
    exact joined

/-! ## (2) Alternations -/

/-- The branches of a branch have its language as their sum. -/
theorem sum_branches (branch : Reduced) : sum branch.branches = branch.language := by
  cases branch with
  | alternation subs => rw [branches, language]
  | _ => exact sum_singleton _

/-- The branches of some branches keep the sum. -/
theorem sum_flatMap_branches (subs : List Reduced) : sum (subs.flatMap branches) = sum subs := by
  induction subs with
  | nil => rfl
  | cons branch rest ih => rw [List.flatMap_cons, sum_append, sum_branches, ih, sum]

/-- The branches of a proper branch are proper. -/
theorem proper_branches {branch : Reduced} (proper : branch.Proper) :
    ∀ sub ∈ branch.branches, sub.Proper := by
  cases branch with
  | alternation subs =>
      rw [Proper, allProper_iff] at proper
      exact proper.2
  | _ =>
      intro sub member
      rw [List.mem_singleton.1 member]
      exact proper

/-- A set accepts its members. -/
theorem language_ofSet (chars : CharSet) :
    (ofSet chars).language = chars.language := by
  unfold ofSet
  split
  · next c only =>
      ext word
      simp only [language, CharSet.mem_language, CharSet.member_of_only? only]
      exact ⟨fun same => ⟨c, rfl, same⟩, fun ⟨d, same, word⟩ => same ▸ word⟩
  · rw [language]

/-- A well-formed set is proper. -/
theorem proper_ofSet {chars : CharSet} (wellFormed : chars.wellFormed = true) :
    (ofSet chars).Proper := by
  unfold ofSet
  split
  · rw [Proper]
    trivial
  · rwa [Proper]

/-- Entries that are all taken apart are put together again. -/
theorem eq_map_of_mapM {α β : Type} {apart : α → Option β} (together : β → α)
    (undo : ∀ {entry part}, apart entry = some part → entry = together part) {entries : List α}
    {parts : List β} (taken : entries.mapM apart = some parts) : entries = parts.map together := by
  induction entries generalizing parts with
  | nil =>
      obtain rfl : [] = parts := by simpa using taken
      rfl
  | cons entry entries ih =>
      simp only [List.mapM_cons, Option.pure_def, Option.bind_eq_bind, Option.bind_eq_some_iff,
        Option.some.injEq] at taken
      obtain ⟨part, first, others, found, rfl⟩ := taken
      rw [List.map_cons, ← undo first, ← ih found]

/-- A branch of a single character is its literal. -/
theorem eq_literal_of_char? {branch : Reduced} {c : Char} (single : branch.char? = some c) :
    branch = .literal [c] := by
  unfold char? at single
  split at single
  · obtain rfl := Option.some.inj single
    rfl
  · exact nomatch single

/-- A branch of a set is that set. -/
theorem eq_oneOf_of_chars? {branch : Reduced} {set : CharSet} (single : branch.chars? = some set) :
    branch = .oneOf set := by
  unfold chars? at single
  split at single
  · obtain rfl := Option.some.inj single
    rfl
  · exact nomatch single

/-- A branch that is a sequence is that of its parts. -/
theorem eq_concat_of_parts? {branch : Reduced} {list : List Reduced}
    (sequence : branch.parts? = some list) : branch = .concat list := by
  unfold parts? at sequence
  split at sequence
  · obtain rfl := Option.some.inj sequence
    rfl
  · exact nomatch sequence

/-- Branches of single characters accept those characters. -/
theorem mem_sum_of_mapM_char? {subs : List Reduced} {chars : List Char}
    (single : subs.mapM char? = some chars) (word : Text) :
    word ∈ sum subs ↔ ∃ c ∈ chars, word = [c] := by
  obtain rfl := eq_map_of_mapM (fun c => .literal [c]) eq_literal_of_char? single
  simp only [mem_sum, List.mem_map, exists_exists_and_eq_and, language]
  rfl

/-- Branches of sets accept the members of the sets. -/
theorem mem_sum_of_mapM_chars? {subs : List Reduced} {sets : List CharSet}
    (single : subs.mapM chars? = some sets) (word : Text) :
    word ∈ sum subs ↔ ∃ set ∈ sets, ∃ c, set.Member c ∧ word = [c] := by
  obtain rfl := eq_map_of_mapM .oneOf eq_oneOf_of_chars? single
  simp only [mem_sum, List.mem_map, exists_exists_and_eq_and, language, CharSet.mem_language]

/-- Sets that proper branches are made of are well formed. -/
theorem wellFormed_of_mapM_chars? {subs : List Reduced} {sets : List CharSet}
    (proper : ∀ sub ∈ subs, sub.Proper) (single : subs.mapM chars? = some sets) :
    ∀ set ∈ sets, set.wellFormed = true := by
  obtain rfl := eq_map_of_mapM .oneOf eq_oneOf_of_chars? single
  intro set member
  have own := proper (.oneOf set) (List.mem_map_of_mem member)
  rwa [Proper] at own

/-- **A choice** has the sum of the languages. -/
theorem language_choice (subs : List Reduced) : (choice subs).language = sum subs := by
  rw [← sum_flatMap_branches, choice]
  split
  · next branch one => rw [one, sum_singleton]
  · split
    · next chars single =>
        ext word
        rw [language_ofSet, mem_sum_of_mapM_char? single, CharSet.mem_language]
        simp only [CharSet.member_ofChars]
    · split
      · next sets single =>
          ext word
          rw [language_ofSet, mem_sum_of_mapM_chars? single, CharSet.mem_language]
          simp only [CharSet.member_union]
          constructor
          · rintro ⟨c, ⟨set, found, holds⟩, rfl⟩
            exact ⟨set, found, c, holds, rfl⟩
          · rintro ⟨set, found, c, holds, rfl⟩
            exact ⟨c, ⟨set, found, holds⟩, rfl⟩
      · rw [language]

/-- **A choice** of proper branches is proper. -/
theorem proper_choice {subs : List Reduced} (proper : ∀ sub ∈ subs, sub.Proper) :
    (choice subs).Proper := by
  have flat : ∀ sub ∈ subs.flatMap branches, sub.Proper := by
    intro sub member
    obtain ⟨branch, found, inside⟩ := List.mem_flatMap.1 member
    exact proper_branches (proper branch found) sub inside
  rw [choice]
  split
  · next branch one => exact flat branch (by rw [one]; simp)
  · split
    · exact proper_ofSet (CharSet.wellFormed_ofChars _)
    · next noChars =>
        split
        · next sets single =>
            exact proper_ofSet (CharSet.wellFormed_union (wellFormed_of_mapM_chars? flat single))
        · rw [Proper, allProper_iff]
          -- a choice without branches counts as one of no characters, so it is not left over
          refine ⟨fun none => ?_, flat⟩
          rw [none] at noChars
          simp at noChars

/-! ## (3) Common starts -/

/-- Lists share as many parts as their shared length says. -/
theorem take_eq_of_le_sharedLength {left right : List Reduced} {length : Nat}
    (short : length ≤ sharedLength left right) : left.take length = right.take length := by
  induction left generalizing right length with
  | nil =>
      obtain rfl : length = 0 := by simpa [sharedLength] using short
      rw [List.take_zero, List.take_zero]
  | cons first left ih =>
      cases right with
      | nil =>
          obtain rfl : length = 0 := by simpa [sharedLength] using short
          rw [List.take_zero, List.take_zero]
      | cons second right =>
          cases length with
          | zero => rw [List.take_zero, List.take_zero]
          | succ length =>
              -- parts are shared up to the first two that differ
              rw [sharedLength] at short
              split at short
              · next same =>
                  rw [List.take_succ_cons, List.take_succ_cons, eq_of_shared _ _ same,
                    ih (Nat.le_of_succ_le_succ short)]
              · omega

/-- The common length is at most the shared length of each list, and at most the bound so far. -/
theorem foldl_min_sharedLength_le (first : List Reduced) (others : List (List Reduced))
    (bound : Nat) :
    others.foldl (fun length other => min length (sharedLength first other)) bound ≤ bound ∧
      ∀ other ∈ others,
        others.foldl (fun length other => min length (sharedLength first other)) bound ≤
          sharedLength first other := by
  induction others generalizing bound with
  | nil => exact ⟨le_rfl, by simp⟩
  | cons next others ih =>
      have ⟨least, each⟩ := ih (min bound (sharedLength first next))
      refine ⟨le_trans least (min_le_left ..), List.forall_mem_cons.2 ⟨?_, each⟩⟩
      exact le_trans least (min_le_right ..)

/-- All lists start like the first one, up to their common length. -/
theorem take_commonLength {first other : List Reduced} {others : List (List Reduced)}
    (member : other ∈ first :: others) :
    other.take (commonLength first others) = first.take (commonLength first others) := by
  rcases List.mem_cons.1 member with rfl | member
  · rfl
  · have short := (foldl_min_sharedLength_le first others first.length).2 other member
    exact (take_eq_of_le_sharedLength short).symm

/-- A sequence is its start times what remains. -/
theorem product_take_mul_drop (parts : List Reduced) (length : Nat) :
    product (parts.take length) * product (parts.drop length) = product parts := by
  rw [← product_append, List.take_append_drop]

/-- Branches that are sequences have the sum of the products as their sum. -/
theorem sum_of_mapM_parts? {subs : List Reduced} {lists : List (List Reduced)}
    (sequences : subs.mapM parts? = some lists) :
    sum subs = (lists.map product).sum := by
  obtain rfl := eq_map_of_mapM .concat eq_concat_of_parts? sequences
  clear sequences
  induction lists with
  | nil => rfl
  | cons list rest ih => rw [List.map_cons, sum, language, ih, List.map_cons, List.sum_cons]

/-- The parts of proper branches that are sequences are proper. -/
theorem proper_of_mapM_parts? {subs : List Reduced} {lists : List (List Reduced)}
    (proper : ∀ sub ∈ subs, sub.Proper) (sequences : subs.mapM parts? = some lists) :
    ∀ list ∈ lists, ∀ part ∈ list, part.Proper := by
  obtain rfl := eq_map_of_mapM .concat eq_concat_of_parts? sequences
  intro list member
  have own := proper (.concat list) (List.mem_map_of_mem member)
  rwa [Proper, allProper_iff] at own

/-- The sum of sequences with a common start is that start times the sum of what remains. -/
theorem mul_sum_drop {start : Language Char} {lists : List (List Reduced)} {length : Nat}
    (common : ∀ list ∈ lists, product (list.take length) = start) :
    start * sum (lists.map fun list => sequence (list.drop length)) = (lists.map product).sum := by
  induction lists with
  | nil => simp [sum]
  | cons list lists ih =>
      obtain ⟨first, others⟩ := List.forall_mem_cons.1 common
      rw [List.map_cons, sum, mul_add, ih others, language_sequence, List.map_cons,
        List.sum_cons, ← first, product_take_mul_drop]

/-- **An alternation** has the sum of the languages. -/
theorem language_alternative (subs : List Reduced) : (alternative subs).language = sum subs := by
  rw [alternative]
  split
  · next first second others sequences =>
      split
      · exact language_choice subs
      -- the common start is taken out, which is distributivity read from right to left
      · next length _ =>
          rw [language_sequence, product_append, product_singleton, language_choice,
            ← sum_flatMap_branches subs, sum_of_mapM_parts? sequences]
          exact mul_sum_drop fun list member => by rw [take_commonLength member]
  · exact language_choice subs

/-- **An alternation** of proper branches is proper. -/
theorem proper_alternative {subs : List Reduced} (proper : ∀ sub ∈ subs, sub.Proper) :
    (alternative subs).Proper := by
  have flat : ∀ sub ∈ subs.flatMap branches, sub.Proper := by
    intro sub member
    obtain ⟨branch, found, inside⟩ := List.mem_flatMap.1 member
    exact proper_branches (proper branch found) sub inside
  rw [alternative]
  split
  · next first second others sequences =>
      have parts := proper_of_mapM_parts? flat sequences
      split
      · exact proper_choice proper
      · next length _ =>
          refine proper_sequence fun sub member => ?_
          rcases List.mem_append.1 member with start | remainder
          · exact parts first (by simp) sub (List.mem_of_mem_take start)
          · rw [List.mem_singleton.1 remainder]
            refine proper_choice fun rest found => ?_
            obtain ⟨list, inside, rfl⟩ := List.mem_map.1 found
            exact proper_sequence fun part remains =>
              parts list inside part (List.mem_of_mem_drop remains)
  · exact proper_choice proper

/-! ## (4) Stars -/

mutual

/-- What denotes only the empty text has no other word. -/
theorem language_le_one : (body : Reduced) → body.onlyEmpty = true → body.language ≤ 1
  | .empty, _ => by rw [language]
  | .literal text, only => by
      rw [onlyEmpty, List.isEmpty_iff] at only
      rw [language, only]
      exact le_rfl
  | .oneOf _, only => by simp [onlyEmpty] at only
  | .optional body, only => by
      rw [onlyEmpty] at only
      rw [language]
      exact add_le (language_le_one body only) le_rfl
  | .star _, only => by simp [onlyEmpty] at only
  | .group body, only => by
      rw [onlyEmpty] at only
      rw [language]
      exact language_le_one body only
  | .concat parts, only => by
      rw [onlyEmpty] at only
      rw [language]
      exact (product_le_one parts only)
  | .alternation branches, only => by
      rw [onlyEmpty] at only
      rw [language]
      exact (sum_le_one branches only)

/-- A product of what denotes only the empty text has no other word. -/
theorem product_le_one : (parts : List Reduced) → allOnlyEmpty parts = true → product parts ≤ 1
  | [], _ => by rw [product]
  | part :: rest, only => by
      rw [allOnlyEmpty, Bool.and_eq_true] at only
      rw [product]
      exact mul_le_one' (language_le_one part only.1) (product_le_one rest only.2)

/-- A sum of what denotes only the empty text has no other word. -/
theorem sum_le_one : (branches : List Reduced) → allOnlyEmpty branches = true → sum branches ≤ 1
  | [], _ => by
      rw [sum]
      exact bot_le
  | branch :: rest, only => by
      rw [allOnlyEmpty, Bool.and_eq_true] at only
      rw [sum]
      exact add_le (language_le_one branch only.1) (sum_le_one rest only.2)

end

/-- **A star** has the star of the language. -/
theorem language_starred (body : Reduced) : (starred body).language = body.language∗ := by
  rw [starred]
  split
  · next only =>
      -- if only the empty text is repeated, the star and the option are both the empty text
      have least := language_le_one body only
      rw [language, kstar_eq_one.2 least, add_eq_right_iff_le.2 least]
  · rw [language]

/-- **A star** over a proper pattern is proper. -/
theorem proper_starred {body : Reduced} (proper : body.Proper) : (starred body).Proper := by
  rw [starred]
  split
  · rwa [Proper]
  · rwa [Proper]

end Reduced

/-! ## (5) Patterns -/

mutual

/-- The reduced form of an item is proper and has its language. -/
theorem Item.reduce_spec : (item : Item) →
    item.reduce.language = item.language ∧ item.reduce.Proper
  | .char c => by
      rw [Item.reduce, Reduced.language, Item.language, Reduced.Proper]
      exact ⟨rfl, trivial⟩
  | .blank => by
      rw [Item.reduce, Reduced.language, Item.language, Reduced.Proper]
      exact ⟨rfl, trivial⟩
  | .group branches => by
      have ⟨language, proper⟩ := Pattern.reduceBranches_spec branches
      rw [Item.reduce, Reduced.language, Reduced.language_alternative, language, Item.language,
        Reduced.Proper]
      exact ⟨rfl, Reduced.proper_alternative proper⟩
  | .star operand => by
      have ⟨language, proper⟩ := Item.reduce_spec operand
      rw [Item.reduce, Reduced.language_starred, language, Item.language]
      exact ⟨rfl, Reduced.proper_starred proper⟩

/-- The reduced forms of some items are proper and have the product of their languages. -/
theorem Pattern.reduceItems_spec : (items : List Item) →
    Reduced.product (Pattern.reduceItems items) = Pattern.sequenceLanguage items ∧
      ∀ sub ∈ Pattern.reduceItems items, sub.Proper
  | [] => by
      rw [Pattern.reduceItems, Reduced.product, Pattern.sequenceLanguage]
      exact ⟨rfl, by simp⟩
  | item :: rest => by
      have ⟨firstLanguage, firstProper⟩ := Item.reduce_spec item
      have ⟨language, proper⟩ := Pattern.reduceItems_spec rest
      rw [Pattern.reduceItems, Reduced.product, firstLanguage, language, Pattern.sequenceLanguage]
      exact ⟨rfl, List.forall_mem_cons.2 ⟨firstProper, proper⟩⟩

/-- The reduced forms of some branches are proper and have the sum of their languages. -/
theorem Pattern.reduceBranches_spec : (branches : List (List Item)) →
    Reduced.sum (Pattern.reduceBranches branches) = Pattern.language branches ∧
      ∀ sub ∈ Pattern.reduceBranches branches, sub.Proper
  | [] => by
      rw [Pattern.reduceBranches, Reduced.sum, Pattern.language]
      exact ⟨rfl, by simp⟩
  | branch :: rest => by
      have ⟨firstLanguage, firstProper⟩ := Pattern.reduceItems_spec branch
      have ⟨language, proper⟩ := Pattern.reduceBranches_spec rest
      rw [Pattern.reduceBranches, Reduced.sum, Reduced.language_sequence, firstLanguage, language,
        Pattern.language]
      exact ⟨rfl, List.forall_mem_cons.2 ⟨Reduced.proper_sequence firstProper, proper⟩⟩

end

/-- **Reduction keeps the language.** -/
theorem Pattern.language_reduce (pattern : Pattern) :
    pattern.reduce.language = Pattern.language pattern := by
  rw [Pattern.reduce, Reduced.language_alternative, (Pattern.reduceBranches_spec pattern).1]

/-- **Reduction** gives proper patterns. -/
theorem Pattern.proper_reduce (pattern : Pattern) : pattern.reduce.Proper :=
  Reduced.proper_alternative (Pattern.reduceBranches_spec pattern).2

end Lexer
