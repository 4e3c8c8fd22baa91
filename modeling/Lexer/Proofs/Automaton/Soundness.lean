import Lexer.Automaton.Check
import Lexer.Proofs.Automaton.Construction
import Lexer.Proofs.Automaton.Longest
import Lexer.Proofs.Pattern.Reduction

/-! # Built automata

**A sound automaton** is in range and without exit, every node carries its position as its number, and
every edge has a well-formed set.  The automaton of a proper reduced pattern is sound and has the
language of the pattern, by recursion over the pattern; so has the automaton of a pattern.  A sound
automaton passes the check that loaded ones have to pass. -/

namespace Lexer.Automaton

open Computability

/-! ## (1) Sound automata -/

/-- **Numbered** nodes carry their positions. -/
def Numbered (automaton : Automaton) : Prop :=
  ∀ (position : Nat) (node : Node),
    automaton.nodes[position]? = some node → node.number = position

/-- An added jump changes no number. -/
theorem Numbered.addJump {automaton : Automaton} (numbered : automaton.Numbered)
    (source target : Nat) : (automaton.addJump source target).Numbered := by
  intro position node found
  simp only [Automaton.addJump, List.getElem?_modify, Option.map_eq_map,
    Option.map_eq_some_iff] at found
  obtain ⟨old, known, rfl⟩ := found
  have number := numbered position old known
  split
  · exact number
  · exact number

/-- An added node carries its position. -/
theorem Numbered.addNode {automaton : Automaton} (numbered : automaton.Numbered)
    (jumps : List Nat) : (automaton.addNode jumps).Numbered := by
  intro position node found
  rw [Automaton.addNode, List.getElem?_append] at found
  split at found
  · exact numbered position node found
  · next behind =>
      have short : position - automaton.nodes.length < 1 :=
        (List.getElem?_eq_some_iff.1 found).1
      have same : position = automaton.nodes.length := by omega
      rw [same, Nat.sub_self] at found
      obtain rfl := Option.some.inj found
      exact same.symm

/-- Side by side, the nodes carry their positions. -/
theorem Numbered.beside {left right : Automaton} (first : left.Numbered) (second : right.Numbered)
    (start finish : Nat) : (Automaton.beside left right start finish).Numbered := by
  intro position node found
  rw [Automaton.beside, List.getElem?_append] at found
  split at found
  · exact first position node found
  · next behind =>
      rw [shift, List.getElem?_map, Option.map_eq_some_iff] at found
      obtain ⟨old, known, rfl⟩ := found
      have number := second _ old known
      simp only [Node.shift]
      omega

/-- A sequence has well-formed sets if both parts have. -/
theorem SetsWellFormed.concat {left right : Automaton} (first : left.SetsWellFormed)
    (second : right.SetsWellFormed) : (left.concat right).SetsWellFormed := by
  cases notEmpty : left.isEmpty with
  | true => rwa [Automaton.concat, notEmpty, if_pos rfl]
  | false =>
      intro position edge leaves
      rcases (mem_edgesFrom_concat notEmpty).1 leaves with
        leaves | ⟨source, moved, rfl, rfl, innerEdge⟩
      · exact first position edge leaves
      · exact second source moved innerEdge

/-- An alternation has well-formed sets if both parts have. -/
theorem SetsWellFormed.alternate {left right : Automaton} (first : left.SetsWellFormed)
    (second : right.SetsWellFormed) : (left.alternate right).SetsWellFormed := by
  intro position edge leaves
  rcases mem_edgesFrom_alternate.1 leaves with leaves | ⟨source, moved, rfl, rfl, innerEdge⟩
  · exact first position edge leaves
  · exact second source moved innerEdge

/-- An option has the sets of its operand. -/
theorem SetsWellFormed.optional {automaton : Automaton} (sets : automaton.SetsWellFormed) :
    automaton.optional.SetsWellFormed := by
  intro position edge leaves
  rw [edgesFrom_optional] at leaves
  exact sets position edge leaves

/-- A repetition has the sets of its operand. -/
theorem SetsWellFormed.star {automaton : Automaton} (sets : automaton.SetsWellFormed) :
    automaton.star.SetsWellFormed := by
  intro position edge leaves
  rw [edgesFrom_star] at leaves
  exact sets position edge leaves

/-- **A sound automaton**, as it is built. -/
structure Sound (automaton : Automaton) : Prop where
  /-- Everything that is referred to is a node. -/
  inRange : automaton.InRange
  /-- Nothing leads on from the end. -/
  noExit : automaton.NoExit
  /-- Every node carries its position. -/
  numbered : automaton.Numbered
  /-- Every edge has a well-formed set. -/
  sets : automaton.SetsWellFormed

/-- The empty automaton is sound. -/
theorem sound_empty : empty.Sound where
  inRange := inRange_fresh 0
  noExit := noExit_fresh 0
  numbered position node found := by
    rcases position with _ | position
    · obtain rfl : Node.fresh 0 = node := by simpa [empty] using found
      rfl
    · simp [empty] at found
  sets position edge leaves := by
    rw [empty, edgesFrom_fresh] at leaves
    exact absurd leaves List.not_mem_nil

/-- The automaton of a well-formed set is sound. -/
theorem sound_single {chars : CharSet} (wellFormed : chars.wellFormed = true) :
    (single chars).Sound where
  inRange := inRange_single chars
  noExit := noExit_single chars
  numbered position node found := by
    rcases position with _ | _ | position
    · obtain rfl : _ = node := by simpa [single] using found
      rfl
    · obtain rfl : Node.fresh 1 = node := by simpa [single] using found
      rfl
    · simp [single] at found
  sets position edge leaves := by
    obtain ⟨-, rfl⟩ := mem_edgesFrom_single.1 leaves
    exact wellFormed

/-- A sequence of sound automata is sound. -/
theorem Sound.concat {left right : Automaton} (first : left.Sound) (second : right.Sound) :
    (left.concat right).Sound where
  inRange := first.inRange.concat second.inRange
  noExit := NoExit.concat first.inRange second.noExit
  numbered := by
    rw [Automaton.concat]
    split
    · exact second.numbered
    · exact (first.numbered.beside second.numbered _ _).addJump _ _
  sets := first.sets.concat second.sets

/-- An alternation of sound automata is sound. -/
theorem Sound.alternate {left right : Automaton} (first : left.Sound) (second : right.Sound) :
    (left.alternate right).Sound where
  inRange := first.inRange.alternate second.inRange
  noExit := NoExit.alternate first.inRange second.inRange
  numbered := ((((first.numbered.beside second.numbered left.start left.finish).addNode _).addNode
    _).addJump _ _).addJump _ _
  sets := first.sets.alternate second.sets

/-- An option of a sound automaton is sound. -/
theorem Sound.optional {automaton : Automaton} (sound : automaton.Sound) :
    automaton.optional.Sound where
  inRange := sound.inRange.optional
  noExit := NoExit.optional sound.inRange sound.noExit
  numbered := sound.numbered.addNode _
  sets := sound.sets.optional

/-- A repetition of a sound automaton is sound. -/
theorem Sound.star {automaton : Automaton} (sound : automaton.Sound) : automaton.star.Sound where
  inRange := sound.inRange.star
  noExit := NoExit.star sound.inRange
  numbered := (((sound.numbered.addNode _).addNode _).addJump _ _).addJump _ _
  sets := sound.sets.star

/-! ## (2) Passing the check -/

/-- Nodes are without defect exactly if they lead to nodes and have well-formed sets only. -/
theorem nodesDefect?_eq_none_iff {count position : Nat} {nodes : List Node} :
    nodesDefect? count position nodes = none ↔ ∀ node ∈ nodes,
      (∀ target ∈ node.targets, target < count) ∧
        ∀ edge ∈ node.edges, edge.chars.wellFormed = true := by
  induction nodes generalizing position with
  | nil => simp [nodesDefect?]
  | cons node rest ih =>
      rw [nodesDefect?, List.forall_mem_cons]
      cases found : node.targets.find? fun target => count ≤ target with
      | some target =>
          have outside : count ≤ target := by simpa using List.find?_some found
          refine ⟨nofun, fun both => ?_⟩
          exact absurd (both.1.1 target (List.mem_of_find?_eq_some found)) (Nat.not_lt_of_ge outside)
      | none =>
          have inside : ∀ target ∈ node.targets, target < count := by simpa using found
          simp only [List.all_eq_true]
          split
          · next formed =>
              rw [ih]
              exact ⟨fun others => ⟨⟨inside, formed⟩, others⟩, fun both => both.2⟩
          · next malformed => exact ⟨nofun, fun both => absurd both.1.2 malformed⟩

/-- An automaton has no defect exactly if its ends are nodes and its nodes are without defect. -/
theorem defect?_eq_none_iff_nodes {automaton : Automaton} :
    automaton.defect? = none ↔
      (automaton.start < automaton.nodes.length ∧ automaton.finish < automaton.nodes.length) ∧
        ∀ node ∈ automaton.nodes, (∀ target ∈ node.targets, target < automaton.nodes.length) ∧
          ∀ edge ∈ node.edges, edge.chars.wellFormed = true := by
  rw [defect?]
  split
  · next ends =>
      rw [nodesDefect?_eq_none_iff]
      exact ⟨fun nodes => ⟨ends, nodes⟩, fun both => both.2⟩
  · next ends => exact ⟨nofun, fun both => absurd both.1 ends⟩

/-- What holds of all targets of a node holds of its jumps and of the targets of its edges. -/
theorem forall_mem_targets_iff {node : Node} {holds : Nat → Prop} :
    (∀ target ∈ node.targets, holds target) ↔
      (∀ target ∈ node.jumps, holds target) ∧ ∀ edge ∈ node.edges, holds edge.target := by
  rw [Node.targets, List.forall_mem_append, List.forall_mem_map]

/-- **An automaton has no defect** exactly if it is in range and has well-formed sets. -/
theorem defect?_eq_none_iff {automaton : Automaton} :
    automaton.defect? = none ↔ automaton.InRange ∧ automaton.SetsWellFormed := by
  -- the check goes through the nodes, while being in range speaks of positions
  simp only [defect?_eq_none_iff_nodes, forall_mem_targets_iff]
  constructor
  · rintro ⟨⟨start, finish⟩, nodes⟩
    refine ⟨⟨start, finish, fun {position next} jump => ?_, fun {position edge} leaves => ?_⟩,
      fun position edge leaves => ?_⟩
    · obtain ⟨node, known, jump⟩ := mem_jumpsFrom_iff.1 jump
      exact (nodes node (List.mem_of_getElem? known)).1.1 next jump
    · obtain ⟨node, known, leaves⟩ := mem_edgesFrom_iff.1 leaves
      exact (nodes node (List.mem_of_getElem? known)).1.2 edge leaves
    · obtain ⟨node, known, leaves⟩ := mem_edgesFrom_iff.1 leaves
      exact (nodes node (List.mem_of_getElem? known)).2 edge leaves
  · rintro ⟨inRange, sets⟩
    refine ⟨⟨inRange.start, inRange.finish⟩, fun node member => ?_⟩
    obtain ⟨position, known⟩ := List.mem_iff_getElem?.1 member
    refine ⟨⟨fun target jump => ?_, fun edge leaves => ?_⟩, fun edge leaves => ?_⟩
    · exact inRange.jumps (mem_jumpsFrom_iff.2 ⟨node, known, jump⟩)
    · exact inRange.edges (mem_edgesFrom_iff.2 ⟨node, known, leaves⟩)
    · exact sets position edge (mem_edgesFrom_iff.2 ⟨node, known, leaves⟩)

/-- **A sound automaton has no defect.** -/
theorem Sound.defect?_eq_none {automaton : Automaton} (sound : automaton.Sound) :
    automaton.defect? = none :=
  defect?_eq_none_iff.2 ⟨sound.inRange, sound.sets⟩

/-! ## (3) The automata of patterns -/

/-- The automaton of some characters is sound and accepts them in a row. -/
theorem ofText_spec (text : Text) : (ofText text).Sound ∧ (ofText text).language = {text} := by
  -- the automaton grows from the left, so the claim is made for any automaton in front
  suffices fold : ∀ automaton : Automaton, automaton.Sound →
      (text.foldl (fun automaton c => automaton.concat (single (CharSet.single c)))
        automaton).Sound ∧
      (text.foldl (fun automaton c => automaton.concat (single (CharSet.single c)))
        automaton).language = automaton.language * {text} by
    have ⟨sound, language⟩ := fold empty sound_empty
    rw [empty, language_fresh, one_mul] at language
    exact ⟨sound, language⟩
  induction text with
  | nil =>
      intro automaton sound
      exact ⟨sound, (mul_one _).symm⟩
  | cons c rest ih =>
      intro automaton sound
      have one := sound_single (CharSet.wellFormed_single c)
      have ⟨restSound, language⟩ := ih _ (sound.concat one)
      refine ⟨restSound, ?_⟩
      have split : ({c :: rest} : Language Char) = {[c]} * {rest} :=
        Pattern.singleton_append [c] rest
      rw [List.foldl_cons, language, language_concat sound.inRange, language_single,
        CharSet.language_single, split, mul_assoc]

end Automaton

open Automaton

mutual

/-- **The automaton of a proper reduced pattern** is sound and has its language. -/
theorem Reduced.automaton_spec : (pattern : Reduced) → pattern.Proper →
    pattern.automaton.Sound ∧ pattern.automaton.language = pattern.language
  | .empty, _ => by
      rw [Reduced.automaton, Reduced.language]
      exact ⟨sound_empty, language_fresh 0⟩
  | .literal text, _ => by
      rw [Reduced.automaton, Reduced.language]
      exact ofText_spec text
  | .oneOf chars, proper => by
      rw [Reduced.Proper] at proper
      rw [Reduced.automaton, Reduced.language]
      exact ⟨sound_single proper, language_single chars⟩
  | .optional body, proper => by
      rw [Reduced.Proper] at proper
      have ⟨sound, language⟩ := Reduced.automaton_spec body proper
      rw [Reduced.automaton, Reduced.language, ← language]
      exact ⟨sound.optional, language_optional sound.inRange sound.noExit⟩
  | .star body, proper => by
      rw [Reduced.Proper] at proper
      have ⟨sound, language⟩ := Reduced.automaton_spec body proper
      rw [Reduced.automaton, Reduced.language, ← language]
      exact ⟨sound.star, language_star sound.inRange sound.noExit⟩
  | .group body, proper => by
      rw [Reduced.Proper] at proper
      rw [Reduced.automaton, Reduced.language]
      exact Reduced.automaton_spec body proper
  | .concat parts, proper => by
      rw [Reduced.Proper] at proper
      have ⟨sound, language⟩ := Reduced.concatAll_spec Automaton.empty sound_empty parts proper
      rw [Reduced.automaton, Reduced.language, language, Automaton.empty, language_fresh, one_mul]
      exact ⟨sound, rfl⟩
  -- an alternation without branches is not proper; its automaton would accept too much
  | .alternation [], proper => by
      rw [Reduced.Proper] at proper
      exact absurd rfl proper.1
  | .alternation (branch :: rest), proper => by
      rw [Reduced.Proper, Reduced.AllProper] at proper
      have ⟨sound, language⟩ := Reduced.automaton_spec branch proper.2.1
      rw [Reduced.automaton, Reduced.language, Reduced.sum, ← language]
      exact Reduced.alternateAll_spec _ sound rest proper.2.2

/-- The automata of some parts behind a sound one are sound and multiply its language. -/
theorem Reduced.concatAll_spec (automaton : Automaton) (sound : automaton.Sound) :
    (parts : List Reduced) → Reduced.AllProper parts →
    (Reduced.concatAll automaton parts).Sound ∧
      (Reduced.concatAll automaton parts).language = automaton.language * Reduced.product parts
  | [], _ => by
      rw [Reduced.concatAll, Reduced.product, mul_one]
      exact ⟨sound, rfl⟩
  | part :: rest, proper => by
      rw [Reduced.AllProper] at proper
      have ⟨partSound, partLanguage⟩ := Reduced.automaton_spec part proper.1
      have ⟨restSound, language⟩ :=
        Reduced.concatAll_spec _ (sound.concat partSound) rest proper.2
      rw [Reduced.concatAll, language, language_concat sound.inRange, partLanguage,
        Reduced.product, mul_assoc]
      exact ⟨restSound, rfl⟩

/-- The automata of some branches beside a sound one are sound and add to its language. -/
theorem Reduced.alternateAll_spec (automaton : Automaton) (sound : automaton.Sound) :
    (branches : List Reduced) → Reduced.AllProper branches →
    (Reduced.alternateAll automaton branches).Sound ∧
      (Reduced.alternateAll automaton branches).language =
        automaton.language + Reduced.sum branches
  | [], _ => by
      rw [Reduced.alternateAll, Reduced.sum, add_zero]
      exact ⟨sound, rfl⟩
  | branch :: rest, proper => by
      rw [Reduced.AllProper] at proper
      have ⟨branchSound, branchLanguage⟩ := Reduced.automaton_spec branch proper.1
      have ⟨restSound, language⟩ :=
        Reduced.alternateAll_spec _ (sound.alternate branchSound) rest proper.2
      rw [Reduced.alternateAll, language, language_alternate sound.inRange branchSound.inRange,
        branchLanguage, Reduced.sum, add_assoc]
      exact ⟨restSound, rfl⟩

end

/-- **The automaton of a pattern** is sound. -/
theorem Pattern.sound_automaton (pattern : Pattern) : pattern.reduce.automaton.Sound :=
  (Reduced.automaton_spec _ (Pattern.proper_reduce pattern)).1

/-- **The automaton of a pattern** has the language of the pattern. -/
theorem Pattern.language_automaton (pattern : Pattern) :
    pattern.reduce.automaton.language = Pattern.language pattern := by
  rw [(Reduced.automaton_spec _ (Pattern.proper_reduce pattern)).2, Pattern.language_reduce]

end Lexer
