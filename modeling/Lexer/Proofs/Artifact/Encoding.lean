import Lexer.Proofs.Artifact.Records
import Lexer.Proofs.Model.Words

/-! # Written models

What is written of a model is decoded to it again, if its numbers have 64 bits: the form of every part of
the model encodes that part.  Whatever is decoded has numbers of 64 bits only. -/

namespace Lexer.Artifact

open Json (Tree Value Ending Quoted)

/-! ## (1) Parts that are written -/

/-- A number of 64 bits. -/
theorem encodes_natural {number : Nat} (small : number < UInt64.size) :
    Encodes natural (.number number) number where
  fits := by rwa [Value.Fits]
  decoded := by
    rw [Tree.ofValue, natural, UInt64.toNat_ofNat_of_lt' small]

/-- A string. -/
theorem encodes_string (text : Text) : Encodes string (.string text) text where
  fits := by rw [Value.Fits]; trivial
  decoded := by rw [Tree.ofValue, string]

/-- A character. -/
theorem encodes_character (c : Char) : Encodes character (.string [c]) c where
  fits := by rw [Value.Fits]; trivial
  decoded := by rw [Tree.ofValue, character]

/-- A set of characters. -/
theorem encodes_charSet (chars : CharSet) :
    Encodes charSet (.list (chars.ranges.toList.map encodeRange)) chars := by
  -- ranges are written as pairs, so the list is that of the pairs of their ends
  have pairs : chars.ranges.toList.map encodeRange =
      (chars.ranges.toList.map fun range => (range.first, range.last)).map
        fun ends => .list [.string [ends.1], .string [ends.2]] := by
    rw [List.map_map]
    rfl
  have encodes : Encodes (list (pair character)) (.list (chars.ranges.toList.map encodeRange))
      (chars.ranges.toList.map fun range => (range.first, range.last)) := by
    rw [pairs]
    exact .list fun ends _ => .pair (encodes_character ends.1) (encodes_character ends.2)
  refine ⟨encodes.fits, Except.map_eq_ok_iff.2 ⟨_, encodes.decoded, ?_⟩⟩
  rw [List.map_map, Function.comp_def, List.map_id']

/-- An edge. -/
theorem encodes_edge {edge : Edge} (small : edge.target < UInt64.size) :
    Encodes Artifact.edge (encodeEdge edge) edge :=
  .record₂ (by decide) (encodes_charSet edge.chars) (encodes_natural small)

/-- A node. -/
theorem encodes_node {node : Node} (words : node.Words) :
    Encodes Artifact.node (encodeNode node) node :=
  .record₃ (by decide) (by decide) (encodes_natural words.number)
    (.list fun target member => encodes_natural (words.jumps target member))
    (.list fun edge member => encodes_edge (words.edges edge member))

/-- An automaton. -/
theorem encodes_automaton {automaton : Automaton} (words : automaton.Words) :
    Encodes Artifact.automaton (encodeAutomaton automaton) automaton :=
  .record₃ (by decide) (by decide)
    (.list fun node member => encodes_node (words.nodes node member))
    (encodes_natural words.start) (encodes_natural words.finish)

/-- An action is written by its name, or by its name and its argument. -/
theorem encodes_action {action : Action} (words : action.Words) :
    Encodes Artifact.action (encodeAction action) action := by
  cases action with
  | skip => exact ⟨by rw [encodeAction, Value.Fits]; trivial, rfl⟩
  | newLine => exact ⟨by rw [encodeAction, Value.Fits]; trivial, rfl⟩
  | token name =>
      refine ⟨?_, rfl⟩
      rw [encodeAction, Value.Fits, Value.MembersFit, Value.MembersFit]
      exact ⟨(encodes_string name).fits, trivial⟩
  | enter state =>
      refine ⟨?_, rfl⟩
      rw [encodeAction, Value.Fits, Value.MembersFit, Value.MembersFit]
      exact ⟨(encodes_string state).fits, trivial⟩
  | rewind count =>
      have encodes := encodes_natural words
      refine ⟨?_, ?_⟩
      · rw [encodeAction, Value.Fits, Value.MembersFit, Value.MembersFit]
        exact ⟨encodes.fits, trivial⟩
      · have known : actionWith .rewind (Tree.ofValue (.number count)) = .ok (.rewind count) :=
          Except.map_eq_ok_iff.2 ⟨count, encodes.decoded, rfl⟩
        rw [encodeAction, Tree.ofValue, Tree.ofMembers, Tree.ofMembers, Artifact.action]
        refine Except.bind_eq_ok_iff.2 ⟨_, rfl, ?_⟩
        refine Except.bind_eq_ok_iff.2 ⟨.rewind, rfl, ?_⟩
        exact Except.bind_eq_ok_iff.2 ⟨_, known, rfl⟩

/-- A rule. -/
theorem encodes_rule {rule : Rule} (words : rule.Words) :
    Encodes Artifact.rule (encodeRule rule) rule :=
  .record₃ (by decide) (by decide) (encodes_automaton words.automaton)
    (.list fun action member => encodes_action (words.actions action member))
    (encodes_string rule.pattern)

/-- A state. -/
theorem encodes_state {state : State} (words : ∀ rule ∈ state.rules, rule.Words) :
    Encodes Artifact.state (encodeState state) state :=
  .record₂ (by decide) (encodes_string state.name)
    (.list fun rule member => encodes_rule (words rule member))

/-- **The states of a model**, and the name of its start state. -/
theorem encodes_model {model : Model} (words : model.Words) :
    Encodes parts (encodeModel model) (model.states, model.startName) :=
  .record₂ (by decide) (.list fun state member => encodes_state (words state member))
    (encodes_string model.startName)

/-! ## (2) Parts that were read -/

/-- A number that was read has 64 bits. -/
theorem small_of_decodes {number : Nat} (decoded : Decodes natural number) : number < UInt64.size := by
  obtain ⟨tree, decoded⟩ := decoded
  unfold natural at decoded
  split at decoded
  · next word =>
      obtain rfl := Except.ok.inj decoded
      exact word.toNat_lt
  · exact nomatch decoded
  · exact nomatch decoded

/-- The numbers of a node that was read have 64 bits. -/
theorem words_of_decodes_node {node : Node} (decoded : Decodes Artifact.node node) :
    node.Words := by
  obtain ⟨number, jumps, edges, numberDecoded, jumpsDecoded, edgesDecoded, rfl⟩ :=
    decodes_of_shape₃ decoded
  refine ⟨small_of_decodes numberDecoded, fun target member => ?_, fun edge member => ?_⟩
  · exact small_of_decodes (decodes_of_list jumpsDecoded member)
  · obtain ⟨chars, target, -, targetDecoded, rfl⟩ :=
      decodes_of_shape₂ (decodes_of_list edgesDecoded member)
    exact small_of_decodes targetDecoded

/-- The numbers of an automaton that was read have 64 bits. -/
theorem words_of_decodes_automaton {automaton : Automaton}
    (decoded : Decodes Artifact.automaton automaton) : automaton.Words := by
  obtain ⟨nodes, start, finish, nodesDecoded, startDecoded, finishDecoded, rfl⟩ :=
    decodes_of_shape₃ decoded
  exact ⟨fun node member => words_of_decodes_node (decodes_of_list nodesDecoded member),
    small_of_decodes startDecoded, small_of_decodes finishDecoded⟩

/-- A bare name is no move back. -/
theorem words_of_bareAction {name : ActionName} {action : Action}
    (decoded : bareAction name = .ok action) : action.Words := by
  cases name with
  | skip | newLine =>
      obtain rfl := Except.ok.inj decoded
      trivial
  | token | enter | rewind => exact nomatch decoded

/-- The number of an action with an argument has 64 bits. -/
theorem words_of_actionWith {name : ActionName} {argument : Tree} {action : Action}
    (decoded : actionWith name argument = .ok action) : action.Words := by
  cases name with
  | skip | newLine | token | enter =>
      obtain ⟨-, -, rfl⟩ := Except.map_eq_ok_iff.1 decoded
      trivial
  | rewind =>
      obtain ⟨count, known, rfl⟩ := Except.map_eq_ok_iff.1 decoded
      exact small_of_decodes ⟨argument, known⟩

/-- The number of an action that was read has 64 bits. -/
theorem words_of_decodes_action {action : Action} (decoded : Decodes Artifact.action action) :
    action.Words := by
  obtain ⟨tree, decoded⟩ := decoded
  unfold Artifact.action at decoded
  split at decoded
  · obtain ⟨name, -, bare⟩ := Except.bind_eq_ok_iff.1 decoded
    exact words_of_bareAction bare
  · exact nomatch decoded
  · exact nomatch decoded
  · split at decoded
    · exact nomatch decoded
    · exact nomatch decoded
  -- an object of one member: its name, the kind of action, its argument and the end
  · obtain ⟨name, -, decoded⟩ := Except.bind_eq_ok_iff.1 decoded
    obtain ⟨kind, -, decoded⟩ := Except.bind_eq_ok_iff.1 decoded
    obtain ⟨its, known, decoded⟩ := Except.bind_eq_ok_iff.1 decoded
    obtain ⟨-, -, decoded⟩ := Except.bind_eq_ok_iff.1 decoded
    obtain rfl : its = action := Except.ok.inj decoded
    exact words_of_actionWith known
  · exact nomatch decoded
  · exact nomatch decoded
  · exact nomatch decoded

/-- The numbers of a rule that was read have 64 bits. -/
theorem words_of_decodes_rule {rule : Rule} (decoded : Decodes Artifact.rule rule) :
    rule.Words := by
  obtain ⟨automaton, actions, pattern, automatonDecoded, actionsDecoded, -, rfl⟩ :=
    decodes_of_shape₃ decoded
  exact ⟨words_of_decodes_automaton automatonDecoded,
    fun action member => words_of_decodes_action (decodes_of_list actionsDecoded member)⟩

/-- **The numbers of states that were read** have 64 bits. -/
theorem words_of_decodes_parts {states : List State} {start : Text}
    (decoded : Decodes parts (states, start)) :
    ∀ state ∈ states, ∀ rule ∈ state.rules, rule.Words := by
  obtain ⟨its, name, statesDecoded, -, same⟩ := decodes_of_shape₂ decoded
  obtain ⟨rfl, rfl⟩ := Prod.mk.inj same
  intro state member rule isRule
  obtain ⟨name, rules, -, rulesDecoded, rfl⟩ :=
    decodes_of_shape₂ (decodes_of_list statesDecoded member)
  exact words_of_decodes_rule (decodes_of_list rulesDecoded isRule)

end Lexer.Artifact
