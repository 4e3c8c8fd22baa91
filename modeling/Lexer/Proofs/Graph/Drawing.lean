import Lexer.Proofs.Graph.Reading
import Lexer.Proofs.Invariant

/-! # Graphs draw their models

Nodes are numbered by the order in which they are written, while arrows find the node of a target by its
name in the index of the model, and an arrow without a target would be left out.  **The graph of a model is
exact** all the same: names are distinct and indexed with the positions of their states, and all targets are
there.  So every change of state has its arrow, in the order of states, rules and actions, and no other node
could be meant.  All of it is in the text: its lines are spelled out, and they are read back as the graph. -/

namespace Lexer.Graph

/-! ## (1) Changes of state -/

/-- **A change of state** that a rule makes. -/
structure Change where
  /-- The position of the state that the rule belongs to. -/
  source : Nat
  /-- The rule. -/
  rule : Rule
  /-- The name of the state that is entered. -/
  target : Text
  deriving DecidableEq, Repr

/-- The change of state that an action of a rule makes, in the state at a position. -/
def change? (source : Nat) (rule : Rule) : Action → Option Change
  | .enter target => some ⟨source, rule, target⟩
  | _ => none

/-- The changes of state of the rules of the state at a position, in the order of rules and actions. -/
def changesOf (source : Nat) (state : State) : List Change :=
  state.rules.flatMap fun rule => rule.actions.filterMap (change? source rule)

/-- **The changes of state** of a model, in the order of states, rules and actions. -/
def changes (model : Model) : List Change :=
  model.states.zipIdx.flatMap fun entry => changesOf entry.2 entry.1

/-- **An arrow draws a change of state** in a model: it starts from the state that the rule belongs to, ends
at the only state with the name that is entered, and shows the pattern of the rule. -/
structure Draws (model : Model) (change : Change) (arrow : Arrow) : Prop where
  /-- The arrow starts where the change does. -/
  source : arrow.source = change.source
  /-- The rule belongs to the state that the arrow starts from. -/
  owned : ∃ state, model.states[arrow.source]? = some state ∧ change.rule ∈ state.rules
  /-- The arrow ends at the state that is entered, and there is no other one of its name. -/
  target : ∀ position, position = arrow.target ↔
    ∃ state, model.states[position]? = some state ∧ state.name = change.target
  /-- The arrow shows the pattern of the rule. -/
  pattern : arrow.pattern = change.rule.pattern

/-- A change of state is one of a rule of a state at its position. -/
theorem mem_changes_iff {model : Model} {change : Change} :
    change ∈ changes model ↔ ∃ state, model.states[change.source]? = some state ∧
      change.rule ∈ state.rules ∧ .enter change.target ∈ change.rule.actions := by
  simp only [changes, changesOf, List.mem_flatMap, List.mem_filterMap]
  constructor
  · rintro ⟨⟨state, position⟩, member, rule, isRule, action, isAction, makes⟩
    cases action with
    | enter target =>
        obtain rfl := Option.some.inj makes
        exact ⟨state, List.mk_mem_zipIdx_iff_getElem?.1 member, isRule, isAction⟩
    | _ => exact nomatch makes
  · rintro ⟨state, known, isRule, enters⟩
    exact ⟨(state, change.source), List.mk_mem_zipIdx_iff_getElem?.2 known, change.rule, isRule, _, enters,
      rfl⟩

/-! ## (2) The arrows of a model -/

/-- The arrow of a change of state, if the index has its target. -/
def arrow? (model : Model) (change : Change) : Option Arrow :=
  (model.position? change.target).map fun reached => ⟨change.source, reached, change.rule.pattern⟩

/-- The arrows of a state are those of its changes. -/
theorem arrowsOf_eq (model : Model) (position : Nat) (state : State) :
    arrowsOf model position state = (changesOf position state).filterMap (arrow? model) := by
  rw [arrowsOf, changesOf, List.filterMap_flatMap]
  congr 1
  funext rule
  rw [Rule.targets, Action.targets, List.filterMap_filterMap, List.filterMap_filterMap]
  congr 1
  funext action
  cases action with
  | enter target => rfl
  | _ => rfl

/-- The arrows of some states are those of their changes. -/
theorem arrowsFrom_eq (model : Model) (position : Nat) (states : List State) :
    arrowsFrom model position states =
      ((states.zipIdx position).flatMap fun entry => changesOf entry.2 entry.1).filterMap
        (arrow? model) := by
  induction states generalizing position with
  | nil => rfl
  | cons state states ih =>
      rw [arrowsFrom, arrowsOf_eq, ih, List.zipIdx_cons, List.flatMap_cons, List.filterMap_append]

/-- **Every change of state** of a consistent model has an arrow, which draws it. -/
theorem exists_arrow {model : Model} (consistent : model.Consistent) {change : Change}
    (member : change ∈ changes model) :
    ∃ arrow, arrow? model change = some arrow ∧ Draws model change arrow := by
  obtain ⟨state, known, isRule, enters⟩ := mem_changes_iff.1 member
  have named : change.target ∈ model.states.map State.name :=
    consistent.invariant.targets state (List.mem_of_getElem? known) change.rule isRule change.target enters
  obtain ⟨reached, found⟩ : ∃ reached, model.position? change.target = some reached :=
    Option.ne_none_iff_exists'.1 fun missing => consistent.indexed.find?_eq_none_iff.1 missing named
  refine ⟨⟨change.source, reached, change.rule.pattern⟩, by rw [arrow?, found]; rfl,
    { source := rfl, owned := ⟨state, known, isRule⟩, target := ?_, pattern := rfl }⟩
  intro position
  rw [← consistent.indexed.find?_eq_some_iff, ← Model.position?, found, Option.some.injEq, eq_comm]

/-- A list and what each of its entries gives, in the same order. -/
theorem forall₂_filterMap {α β : Type} {related : α → β → Prop} {give : α → Option β}
    {entries : List α}
    (all : ∀ entry ∈ entries, ∃ result, give entry = some result ∧ related entry result) :
    List.Forall₂ related entries (entries.filterMap give) := by
  induction entries with
  | nil => exact .nil
  | cons entry entries ih =>
      rw [List.forall_mem_cons] at all
      obtain ⟨⟨result, gives, isRelated⟩, behind⟩ := all
      rw [List.filterMap_cons_some gives]
      exact .cons isRelated (ih behind)

/-- The arrows of a model are those of its changes of state. -/
theorem arrows_ofModel (model : Model) (label : Text) :
    (ofModel model label).arrows = (changes model).filterMap (arrow? model) :=
  arrowsFrom_eq model 0 model.states

/-- **The arrows** of a consistent model draw its changes of state, one each, in order. -/
theorem draws_arrows {model : Model} (consistent : model.Consistent) (label : Text) :
    List.Forall₂ (Draws model) (changes model) (ofModel model label).arrows := by
  rw [arrows_ofModel]
  exact forall₂_filterMap fun change member => exists_arrow consistent member

/-! ## (3) The nodes of a model -/

/-- The nodes of some states, in order. -/
theorem nodesFrom_eq (start position : Nat) (states : List State) :
    nodesFrom start position states = (states.zipIdx position).map fun entry =>
      ⟨entry.1.name, entry.1.rules.length, entry.2 = start⟩ := by
  induction states generalizing position with
  | nil => rfl
  | cons state states ih => rw [nodesFrom, ih, List.zipIdx_cons, List.map_cons]

/-- The lines of some nodes, in order. -/
theorem nodeLines_eq (number : Nat) (nodes : List Node) :
    nodeLines number nodes = (nodes.zipIdx number).flatMap fun entry => entry.1.line entry.2 := by
  induction nodes generalizing number with
  | nil => rfl
  | cons node nodes ih => rw [nodeLines, ih, List.zipIdx_cons, List.flatMap_cons]

/-- Behind the start, no node stands out. -/
theorem filter_nodesFrom_of_lt {start position : Nat} (behind : start < position) (states : List State) :
    (nodesFrom start position states).filter Node.isStart = [] := by
  rw [nodesFrom_eq, List.filter_eq_nil_iff]
  intro node member
  obtain ⟨entry, isEntry, rfl⟩ := List.mem_map.1 member
  have later : position ≤ entry.2 := List.le_snd_of_mem_zipIdx isEntry
  rw [decide_eq_true_iff]
  omega

/-- **The node of the start state** is the only one that stands out. -/
theorem filter_nodesFrom {states : List State} {offset : Nat} {state : State}
    (known : states[offset]? = some state) (position : Nat) :
    (nodesFrom (position + offset) position states).filter Node.isStart =
      [⟨state.name, state.rules.length, true⟩] := by
  induction states generalizing offset position with
  | nil => exact nomatch known
  | cons first states ih =>
      cases offset with
      | zero =>
          obtain rfl : first = state := Option.some.inj known
          have behind := filter_nodesFrom_of_lt (Nat.lt_succ_self position) states
          rw [nodesFrom, List.filter_cons_of_pos (by simp), Nat.add_zero, behind]
          simp
      | succ offset =>
          have shifted : position + (offset + 1) = position + 1 + offset := by omega
          rw [nodesFrom, List.filter_cons_of_neg (by simp), shifted]
          exact ih known (position + 1)

/-! ## (4) The text of a model -/

/-- **The line of a node**, spelled out. -/
theorem Node.line_eq (number : Nat) (node : Node) :
    node.line number = ["  node_".toList, Decimal.write number, " [label=\x22".toList,
      Text.escape node.name, "\n".toList, Decimal.write node.rules, " rules\x22".toList,
      if node.isStart then ", shape=circle, color=blue, penwidth=3".toList else [],
      "];\n".toList].flatten := by
  delta Node.line identifier quote Node.label
  simp only [List.flatten_cons, List.flatten_nil, List.append_assoc, List.cons_append]
  rfl

/-- **The line of an arrow**, spelled out. -/
theorem Arrow.line_eq (arrow : Arrow) :
    arrow.line = ["  node_".toList, Decimal.write arrow.source, " -> node_".toList,
      Decimal.write arrow.target, " [label=\x22".toList, Text.escape arrow.pattern,
      "\x22];\n".toList].flatten := by
  delta Arrow.line identifier quote
  simp only [List.flatten_cons, List.flatten_nil, List.append_assoc, List.cons_append]
  rfl

/-- **The text of a graph**, spelled out but for its lines. -/
theorem render_eq (graph : Graph) :
    graph.render = ["digraph \x7b\n  label=\x22".toList, graph.label,
      "\x22;\n  rankdir=LR;\n".toList,
      graph.nodes.zipIdx.flatMap fun entry => entry.1.line entry.2,
      graph.arrows.flatMap Arrow.line, "\x7d\n".toList].flatten := by
  rw [← nodeLines_eq]
  delta render labelLine quote
  simp only [List.flatten_cons, List.flatten_nil, List.append_assoc, List.cons_append]
  rfl

/-- The arrow of a change of state joins positions of states. -/
theorem Draws.inside {model : Model} {change : Change} {arrow : Arrow}
    (draws : Draws model change arrow) :
    arrow.source < model.states.length ∧ arrow.target < model.states.length := by
  obtain ⟨state, known, -⟩ := draws.owned
  obtain ⟨entered, found, -⟩ := (draws.target arrow.target).1 rfl
  exact ⟨(List.getElem?_eq_some_iff.1 known).1, (List.getElem?_eq_some_iff.1 found).1⟩

/-- The arrows of a consistent model join nodes of its graph. -/
theorem inside_ofModel {model : Model} (consistent : model.Consistent) (label : Text) :
    ∀ arrow ∈ (ofModel model label).arrows, arrow.source < (ofModel model label).nodes.length ∧
      arrow.target < (ofModel model label).nodes.length := by
  have length : (ofModel model label).nodes.length = model.states.length := by
    rw [ofModel, nodesFrom_eq, List.length_map, List.length_zipIdx]
  intro arrow member
  rw [arrows_ofModel] at member
  obtain ⟨change, isChange, gives⟩ := List.mem_filterMap.1 member
  obtain ⟨drawn, gives', draws⟩ := exists_arrow consistent isChange
  obtain rfl := Option.some.inj (gives.symm.trans gives')
  rw [length]
  exact draws.inside

/-- **The text of a graph draws its model.**  It has one node for each state, numbered by its position, with
its name and its number of rules, and the start state is the only one that stands out.  Then it has one arrow
for each change of state, in the order of states, rules and actions, between the nodes of the two states, with
the pattern of the rule.  These are its lines, character by character; and if the label of the graph is the
content of a string, they are read as statements that make these nodes and these arrows, and nothing else. -/
theorem render_draws {model : Model} (reached : model.Reached) (label : Text) :
    let nodes : List Node := model.states.zipIdx.map fun entry =>
      ⟨entry.1.name, entry.1.rules.length, entry.2 = model.start⟩
    let nodeLine (number : Nat) (node : Node) : Text :=
      ["  node_".toList, Decimal.write number, " [label=\x22".toList,
        Text.escape node.name, "\n".toList, Decimal.write node.rules, " rules\x22".toList,
        if node.isStart then ", shape=circle, color=blue, penwidth=3".toList else [],
        "];\n".toList].flatten
    let arrowLine (arrow : Arrow) : Text :=
      ["  node_".toList, Decimal.write arrow.source, " -> node_".toList,
        Decimal.write arrow.target, " [label=\x22".toList, Text.escape arrow.pattern,
        "\x22];\n".toList].flatten
    (∃ arrows, List.Forall₂ (Draws model) (changes model) arrows ∧
      (ofModel model label).render = ["digraph \x7b\n  label=\x22".toList, label,
        "\x22;\n  rankdir=LR;\n".toList, nodes.zipIdx.flatMap fun entry => nodeLine entry.2 entry.1,
        arrows.flatMap arrowLine, "\x7d\n".toList].flatten ∧
      (IsContent label → read? (ofModel model label).render = some ⟨label, nodes, arrows⟩)) ∧
    ∃ start, model.startState? = some start ∧
      nodes.filter Node.isStart = [⟨start.name, start.rules.length, true⟩] := by
  intro nodes nodeLine arrowLine
  have isNodes : nodesFrom model.start 0 model.states = nodes := nodesFrom_eq model.start 0 model.states
  refine ⟨⟨_, draws_arrows reached.consistent label, ?_, fun isContent => ?_⟩, ?_⟩
  · have lines : (fun entry : Node × Nat => entry.1.line entry.2) = fun entry =>
        nodeLine entry.2 entry.1 := funext fun entry => Node.line_eq entry.2 entry.1
    rw [render_eq, lines, ofModel, isNodes, funext Arrow.line_eq]
  · rw [read?_render isContent (inside_ofModel reached.consistent label), ofModel, isNodes]
  · obtain ⟨start, known⟩ := reached.consistent.start
    have highlighted := filter_nodesFrom known 0
    rw [Nat.zero_add, isNodes] at highlighted
    exact ⟨start, known, highlighted⟩

/-- Two states whose names stand in the other order, the second one of which is the start: both rules of the
first one change to the second one, and back. -/
theorem render_draws_crossing :
    let first : RuleEntry := ⟨['ž'], ['a'], ['-'], ["UDJI_U_STANJE z".toList]⟩
    let second : RuleEntry := ⟨['z'], ['b'], ['B'], ["UDJI_U_STANJE(ž)".toList]⟩
    let forth : Rule :=
      ⟨⟨[⟨0, [], [⟨.single 'a', 1⟩]⟩, ⟨1, [], []⟩], 0, 1⟩, [.skip, .enter ['z']], ['a']⟩
    let back : Rule :=
      ⟨⟨[⟨0, [], [⟨.single 'b', 1⟩]⟩, ⟨1, [], []⟩], 0, 1⟩, [.token ['B'], .enter ['ž']], ['b']⟩
    let model : Model := ⟨[⟨['ž'], [forth, forth]⟩, ⟨['z'], [back]⟩], [(['z'], 1), (['ž'], 0)], 1⟩
    let text : Text := ["digraph \x7b\n".toList, "  label=\x22l\x22;\n".toList, "  rankdir=LR;\n".toList,
      "  node_0 [label=\x22\\u\x7b17e\x7d\n2 rules\x22];\n".toList,
      "  node_1 [label=\x22z\n1 rules\x22, shape=circle, color=blue, penwidth=3];\n".toList,
      "  node_0 -> node_1 [label=\x22a\x22];\n".toList, "  node_0 -> node_1 [label=\x22a\x22];\n".toList,
      "  node_1 -> node_0 [label=\x22b\x22];\n".toList, "\x7d\n".toList].flatten
    Model.compile ⟨[], [['z']], [], [first, second, first]⟩ = .ok model ∧ IsContent ['l'] ∧
    (ofModel model ['l']).render = text ∧
    ∃ arrows,
      List.Forall₂ (Draws model) [⟨0, forth, ['z']⟩, ⟨0, forth, ['z']⟩, ⟨1, back, ['ž']⟩] arrows ∧
      read? text = some ⟨['l'], [⟨['ž'], 2, false⟩, ⟨['z'], 1, true⟩], arrows⟩ := by
  intro first second forth back model text
  have compiled : Model.compile ⟨[], [['z']], [], [first, second, first]⟩ = .ok model := by decide +kernel
  have isContent : IsContent ['l'] := .plain (by decide) (by decide) .nil
  have rendered : (ofModel model ['l']).render = text := by decide +kernel
  obtain ⟨arrows, draws, -, reads⟩ := (render_draws (.compiled compiled) ['l']).1
  rw [rendered] at reads
  exact ⟨compiled, isContent, rendered, arrows, draws, reads isContent⟩

end Lexer.Graph
