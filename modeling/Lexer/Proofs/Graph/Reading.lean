import Lexer.Proofs.Graph.Strings

/-! # Reading graphs

**The text of a graph is a list of statements**, each of which ends with a semicolon: attributes of the graph,
nodes with a name of their own, and edges between the names of two nodes.  Reading takes a text apart into
strings, words and marks, these into statements, and carries out the statements one by one: a node has to have a
new name, and an edge joins nodes that are there, found by their names.  The writer is not asked for anything, so
a graph that is read back was written whole: none of its nodes and arrows is missing, none is there twice, and
every arrow joins the nodes that it was written for. -/

namespace Lexer.Graph

/-! ## (1) Tokens -/

/-- **Tokens** of graph text. -/
inductive Token where
  /-- A word outside of strings. -/
  | word (text : Text)
  /-- A string, without its quotation marks. -/
  | string (content : Text)
  /-- Any other character that is no blank. -/
  | mark (c : Char)
  deriving DecidableEq, Repr

/-- The characters of words. -/
def isWordChar (c : Char) : Bool :=
  c.isAlpha || Decimal.isDigit c || c = '_'

/-- The token of a word that ended, which is given in reverse. -/
def wordToken (word : Text) : List Token :=
  if word.isEmpty then [] else [.word word.reverse]

/-- **The tokens** of some pieces, behind the start of a word, which is given in reverse. -/
def tokensFrom (word : Text) : List Piece → List Token
  | [] => wordToken word
  | .string content :: rest => wordToken word ++ .string content :: tokensFrom [] rest
  | .char c :: rest =>
      if isWordChar c then tokensFrom (c :: word) rest
      else if c = ' ' ∨ c = '\n' then wordToken word ++ tokensFrom [] rest
      else wordToken word ++ .mark c :: tokensFrom [] rest

/-! ## (2) Statements -/

/-- **Attributes** with their values. -/
abbrev Attributes := List (Text × Text)

/-- **Statements** of graph text. -/
inductive Statement where
  /-- An attribute of the graph. -/
  | setting (name value : Text)
  /-- A node with its name. -/
  | node (name : Text) (attributes : Attributes)
  /-- An edge from a node to another one, both by their names. -/
  | edge (source target : Text) (attributes : Attributes)
  deriving DecidableEq, Repr

/-- The value that a token gives to an attribute. -/
def Token.value? : Token → Option Text
  | .word text => some text
  | .string content => some content
  | .mark _ => none

/-- Attributes with commas between them, up to the closing bracket. -/
def attributes? : List Token → Option Attributes
  | [.word name, .mark '=', value, .mark ']'] => do return [(name, ← value.value?)]
  | .word name :: .mark '=' :: value :: .mark ',' :: rest => do
      return (name, ← value.value?) :: (← attributes? rest)
  | _ => none

/-- **The statement** of some tokens. -/
def statement? : List Token → Option Statement
  | [.word name, .mark '=', value] => do return .setting name (← value.value?)
  | .word name :: .mark '[' :: rest => do return .node name (← attributes? rest)
  | .word source :: .mark '-' :: .mark '>' :: .word target :: .mark '[' :: rest => do
      return .edge source target (← attributes? rest)
  | _ => none

/-- The statements up to the closing brace, behind the start of one, which is given in reverse. -/
def statementsFrom (start : List Token) : List Token → Option (List Statement)
  | [] => none
  | token :: rest =>
      if token = .mark ';' then do
        let statement ← statement? start.reverse
        (statementsFrom [] rest).map fun behind => statement :: behind
      else if token = .mark '\x7d' then
        if start.isEmpty && rest.isEmpty then some [] else none
      else statementsFrom (token :: start) rest

/-- **The statements** of graph text. -/
def statements? (text : Text) : Option (List Statement) := do
  match tokensFrom [] (← scan? text) with
  | .word word :: mark :: rest =>
      if word = "digraph".toList ∧ mark = .mark '\x7b' then statementsFrom [] rest else none
  | _ => none

/-! ## (3) Carrying out statements -/

/-- The attributes of a node that stands out, besides its label. -/
def highlight : Attributes :=
  [("shape".toList, "circle".toList), ("color".toList, "blue".toList), ("penwidth".toList, "3".toList)]

/-- The label among some attributes, and the other ones behind it. -/
def label? : Attributes → Option (Text × Attributes)
  | (name, label) :: others => if name = "label".toList then some (label, others) else none
  | [] => none

/-- The node with some attributes: its label shows a state, and it stands out or has no other ones. -/
def node? (attributes : Attributes) : Option Node := do
  let (label, others) ← label? attributes
  let (name, rules) ← shownState? label
  if others = [] then return ⟨name, rules, false⟩
  else if others = highlight then return ⟨name, rules, true⟩
  else none

/-- The pattern that the label of an edge shows, which has no other attributes. -/
def pattern? (attributes : Attributes) : Option Text := do
  let (label, others) ← label? attributes
  if others = [] then Text.unescape? label else none

/-- **What was read** of a graph: the names of its nodes, and the graph. -/
structure Canvas where
  /-- The names of the nodes. -/
  names : List Text
  /-- The graph. -/
  graph : Graph
  deriving DecidableEq, Repr

/-- The number of the node with a name. -/
def Canvas.number? (canvas : Canvas) (name : Text) : Option Nat :=
  canvas.names.findIdx? fun other => other = name

/-- **Carry out a statement.** -/
def Canvas.draw (canvas : Canvas) : Statement → Option Canvas
  | .setting name value =>
      if name = "label".toList then some ⟨canvas.names, { canvas.graph with label := value }⟩
      else if name = "rankdir".toList ∧ value = "LR".toList then some canvas
      else none
  | .node name attributes => do
      let node ← node? attributes
      if (canvas.number? name).isSome then none
      else return ⟨canvas.names ++ [name],
        { canvas.graph with nodes := canvas.graph.nodes ++ [node] }⟩
  | .edge source target attributes => do
      let arrow : Arrow :=
        ⟨← canvas.number? source, ← canvas.number? target, ← pattern? attributes⟩
      return ⟨canvas.names, { canvas.graph with arrows := canvas.graph.arrows ++ [arrow] }⟩

/-- **Read a graph.** -/
def read? (text : Text) : Option Graph := do
  let canvas ← (← statements? text).foldlM Canvas.draw ⟨[], ⟨[], [], []⟩⟩
  return canvas.graph

/-! ## (4) The tokens of a graph -/

/-- The tokens of one more attribute, whose value is a word. -/
def attributeTokens (setting : Text × Text) : List Token :=
  [.mark ',', .word setting.1, .mark '=', .word setting.2]

/-- The tokens of the node with a number. -/
def Node.tokens (number : Nat) (node : Node) : List Token :=
  .word (identifier number) :: .mark '[' :: .word "label".toList :: .mark '=' :: .string node.label ::
    ((if node.isStart then highlight.flatMap attributeTokens else []) ++ [.mark ']', .mark ';'])

/-- The tokens of an arrow. -/
def Arrow.tokens (arrow : Arrow) : List Token :=
  [.word (identifier arrow.source), .mark '-', .mark '>', .word (identifier arrow.target), .mark '[',
    .word "label".toList, .mark '=', .string arrow.label, .mark ']', .mark ';']

/-- The tokens of some nodes, the first of which has a given number. -/
def nodeTokens (number : Nat) : List Node → List Token
  | [] => []
  | node :: rest => node.tokens number ++ nodeTokens (number + 1) rest

/-- Characters, one behind the other. -/
theorem chars_append (left right : Text) : chars (left ++ right) = chars left ++ chars right :=
  List.map_append

/-- Characters of a word continue it. -/
theorem tokensFrom_word {text : Text} (isWord : ∀ c ∈ text, isWordChar c = true) (word : Text)
    (rest : List Piece) :
    tokensFrom word (chars text ++ rest) = tokensFrom (text.reverse ++ word) rest := by
  induction text generalizing word with
  | nil => rfl
  | cons c text ih =>
      rw [List.forall_mem_cons] at isWord
      rw [chars, List.map_cons, List.cons_append, tokensFrom, if_pos isWord.1, ← chars, ih isWord.2,
        List.reverse_cons, List.append_assoc, List.singleton_append]

/-- An identifier has characters of words only. -/
theorem isWordChar_of_mem_identifier (number : Nat) : ∀ c ∈ identifier number, isWordChar c = true := by
  have digits := List.all_eq_true.1 (Decimal.all_isDigit_write number)
  have front : "node_".toList.all isWordChar = true := by decide
  intro c member
  rcases List.mem_append.1 member with isFront | isDigit
  · exact List.all_eq_true.1 front c isFront
  · rw [isWordChar, digits c isDigit, Bool.or_true, Bool.true_or]

/-- **An identifier** in front of a blank is a word. -/
theorem tokensFrom_identifier (number : Nat) (rest : List Piece) :
    tokensFrom [] (chars (identifier number) ++ .char ' ' :: rest) =
      .word (identifier number) :: tokensFrom [] rest := by
  have ended : tokensFrom (identifier number).reverse (.char ' ' :: rest) =
      wordToken (identifier number).reverse ++ tokensFrom [] rest := rfl
  have word : wordToken (identifier number).reverse = [.word (identifier number)] := by
    have nonempty : (identifier number).reverse.isEmpty = false := List.isEmpty_reverse
    rw [wordToken, nonempty, List.reverse_reverse]
    rfl
  rw [tokensFrom_word (isWordChar_of_mem_identifier number), List.append_nil, ended, word,
    List.singleton_append]

/-- An identifier with a label behind it. -/
theorem tokensFrom_labelled (number : Nat) (label : Text) (rest : List Piece) :
    tokensFrom [] (chars (identifier number) ++ (chars " [label=".toList ++ .string label :: rest)) =
      [.word (identifier number), .mark '[', .word "label".toList, .mark '=', .string label] ++
        tokensFrom [] rest :=
  tokensFrom_identifier number (chars "[label=".toList ++ .string label :: rest)

/-- **The pieces of a node** have its tokens. -/
theorem Node.tokensFrom_pieces (number : Nat) (node : Node) (rest : List Piece) :
    tokensFrom [] (node.pieces number ++ rest) = node.tokens number ++ tokensFrom [] rest := by
  have front : node.pieces number ++ rest = chars "  ".toList ++ (chars (identifier number) ++
      (chars " [label=".toList ++ .string node.label ::
        (chars ((if node.isStart then startAttributes else []) ++ "];\n".toList) ++ rest))) := by
    rw [Node.pieces, framed]
    simp only [chars_append, List.append_assoc, List.cons_append]
  rw [front]
  change tokensFrom [] (chars (identifier number) ++ _) = _
  rw [tokensFrom_labelled, Node.tokens]
  cases node.isStart with
  | true => rfl
  | false => rfl

/-- The pieces of some nodes have their tokens. -/
theorem tokensFrom_nodePieces (number : Nat) (nodes : List Node) (rest : List Piece) :
    tokensFrom [] (nodePieces number nodes ++ rest) = nodeTokens number nodes ++ tokensFrom [] rest := by
  induction nodes generalizing number with
  | nil => rfl
  | cons node nodes ih =>
      rw [nodePieces, nodeTokens, List.append_assoc, List.append_assoc, Node.tokensFrom_pieces, ih]

/-- **The pieces of an arrow** have its tokens. -/
theorem Arrow.tokensFrom_pieces (arrow : Arrow) (rest : List Piece) :
    tokensFrom [] (arrow.pieces ++ rest) = arrow.tokens ++ tokensFrom [] rest := by
  have front : arrow.pieces ++ rest = chars "  ".toList ++ (chars (identifier arrow.source) ++
      (chars " -> ".toList ++ (chars (identifier arrow.target) ++
        (chars " [label=".toList ++ .string arrow.label :: (chars "];\n".toList ++ rest))))) := by
    rw [Arrow.pieces, framed]
    simp only [chars_append, List.append_assoc, List.cons_append]
  have points : ∀ behind, tokensFrom [] (chars "-> ".toList ++ behind) =
      [.mark '-', .mark '>'] ++ tokensFrom [] behind := fun _ => rfl
  rw [front]
  change tokensFrom [] (chars (identifier arrow.source) ++
    .char ' ' :: (chars "-> ".toList ++ _)) = _
  rw [tokensFrom_identifier, points, tokensFrom_labelled]
  rfl

/-- The pieces of some arrows have their tokens. -/
theorem tokensFrom_arrows (arrows : List Arrow) (rest : List Piece) :
    tokensFrom [] (arrows.flatMap Arrow.pieces ++ rest) =
      arrows.flatMap Arrow.tokens ++ tokensFrom [] rest := by
  induction arrows with
  | nil => rfl
  | cons arrow arrows ih =>
      rw [List.flatMap_cons, List.flatMap_cons, List.append_assoc, List.append_assoc,
        Arrow.tokensFrom_pieces, ih]

/-- **The tokens of a graph.** -/
theorem tokensFrom_pieces (graph : Graph) : tokensFrom [] graph.pieces =
    .word "digraph".toList :: .mark '\x7b' ::
      .word "label".toList :: .mark '=' :: .string graph.label :: .mark ';' ::
      .word "rankdir".toList :: .mark '=' :: .word "LR".toList :: .mark ';' ::
      (nodeTokens 0 graph.nodes ++ (graph.arrows.flatMap Arrow.tokens ++ [.mark '\x7d'])) := by
  have last : tokensFrom [] (chars "\x7d\n".toList) = [.mark '\x7d'] := rfl
  rw [← last, ← tokensFrom_arrows, ← tokensFrom_nodePieces]
  rfl

/-! ## (5) The statements of a graph -/

/-- The statement of the node with a number. -/
def Node.statement (number : Nat) (node : Node) : Statement :=
  .node (identifier number)
    (("label".toList, node.label) :: if node.isStart then highlight else [])

/-- The statements of some nodes, the first of which has a given number. -/
def nodeStatements (number : Nat) : List Node → List Statement
  | [] => []
  | node :: rest => node.statement number :: nodeStatements (number + 1) rest

/-- The statement of an arrow. -/
def Arrow.statement (arrow : Arrow) : Statement :=
  .edge (identifier arrow.source) (identifier arrow.target) [("label".toList, arrow.label)]

/-- **The statements of a graph.** -/
def statements (graph : Graph) : List Statement :=
  .setting "label".toList graph.label :: .setting "rankdir".toList "LR".toList ::
    (nodeStatements 0 graph.nodes ++ graph.arrows.map Arrow.statement)

/-- The tokens of some nodes make their statements. -/
theorem statementsFrom_nodes {behind : List Token} {rest : List Statement}
    (known : statementsFrom [] behind = some rest) (number : Nat) (nodes : List Node) :
    statementsFrom [] (nodeTokens number nodes ++ behind) =
      some (nodeStatements number nodes ++ rest) := by
  induction nodes generalizing number with
  | nil => exact known
  | cons node nodes ih =>
      have first : statementsFrom [] (node.tokens number ++ (nodeTokens (number + 1) nodes ++ behind)) =
          (statementsFrom [] (nodeTokens (number + 1) nodes ++ behind)).map
            fun statements => node.statement number :: statements := by
        rw [Node.tokens, Node.statement]
        cases node.isStart with
        | true => rfl
        | false => rfl
      rw [nodeTokens, List.append_assoc, first, ih]
      rfl

/-- The tokens of some arrows make their statements. -/
theorem statementsFrom_arrows (arrows : List Arrow) :
    statementsFrom [] (arrows.flatMap Arrow.tokens ++ [.mark '\x7d']) =
      some (arrows.map Arrow.statement) := by
  induction arrows with
  | nil => rfl
  | cons arrow arrows ih =>
      have first : ∀ behind, statementsFrom [] (arrow.tokens ++ behind) =
          (statementsFrom [] behind).map fun statements => arrow.statement :: statements :=
        fun _ => rfl
      rw [List.flatMap_cons, List.append_assoc, first, ih]
      rfl

/-- **The text of a graph is read as its statements**, if its label is the content of a string. -/
theorem statements?_render {graph : Graph} (isContent : IsContent graph.label) :
    statements? graph.render = some graph.statements := by
  have label : ∀ behind, statementsFrom []
      (.word "label".toList :: .mark '=' :: .string graph.label :: .mark ';' :: behind) =
        (statementsFrom [] behind).map fun statements =>
          .setting "label".toList graph.label :: statements := fun _ => rfl
  have direction : ∀ behind, statementsFrom []
      (.word "rankdir".toList :: .mark '=' :: .word "LR".toList :: .mark ';' :: behind) =
        (statementsFrom [] behind).map fun statements =>
          .setting "rankdir".toList "LR".toList :: statements := fun _ => rfl
  have body := statementsFrom_nodes (statementsFrom_arrows graph.arrows) 0 graph.nodes
  rw [statements?, scan?_render isContent, Option.bind_eq_bind, Option.bind_some, tokensFrom_pieces]
  dsimp only
  rw [if_pos ⟨rfl, rfl⟩, label, direction, body]
  rfl

/-! ## (6) Graphs that are read back -/

/-- The identifiers of the first nodes. -/
def identifiers (count : Nat) : List Text :=
  (List.range count).map identifier

/-- **Identifiers** of nodes are the same only for the same number. -/
theorem identifier_inj {first second : Nat} : identifier first = identifier second ↔ first = second := by
  refine ⟨fun same => ?_, congrArg identifier⟩
  have digits : Decimal.write first = Decimal.write second := List.append_cancel_left same
  have known := Decimal.read?_write first
  rw [digits, Decimal.read?_write] at known
  exact (Option.some.inj known).symm

/-- The next identifier is a new one. -/
theorem Canvas.number?_next (count : Nat) (graph : Graph) :
    (Canvas.mk (identifiers count) graph).number? (identifier count) = none := by
  rw [Canvas.number?, List.findIdx?_eq_none_iff]
  intro name member
  obtain ⟨number, inside, rfl⟩ := List.mem_map.1 member
  rw [decide_eq_false_iff_not, identifier_inj]
  exact Nat.ne_of_lt (List.mem_range.1 inside)

/-- **A node is found** by its identifier. -/
theorem Canvas.number?_identifier {count number : Nat} (inside : number < count) (graph : Graph) :
    (Canvas.mk (identifiers count) graph).number? (identifier number) = some number := by
  have length : (identifiers count).length = count := by
    rw [identifiers, List.length_map, List.length_range]
  have known : ∀ (other : Nat) (bound : other < (identifiers count).length),
      (identifiers count)[other] = identifier other := by
    intro other bound
    simp only [identifiers, List.getElem_map, List.getElem_range]
  rw [Canvas.number?, List.findIdx?_eq_some_iff_getElem]
  refine ⟨length.symm ▸ inside, ?_, fun other before => ?_⟩
  · rw [known, decide_eq_true_iff]
  · rw [known, decide_eq_true_iff, identifier_inj]
    exact Nat.ne_of_lt before

/-- The attributes of a node are read as the node. -/
theorem node?_attributes (node : Node) :
    node? (("label".toList, node.label) :: if node.isStart then highlight else []) = some node := by
  obtain ⟨name, rules, isStart⟩ := node
  have shown : shownState? (Node.label ⟨name, rules, isStart⟩) = some (name, rules) :=
    shownState?_label _
  rw [node?, label?, if_pos rfl, Option.bind_eq_bind, Option.bind_some]
  simp only [Option.bind_eq_bind]
  rw [shown]
  cases isStart with
  | true => rfl
  | false => rfl

/-- **The statements of nodes** add the nodes. -/
theorem foldlM_nodeStatements (nodes : List Node) (count : Nat) (graph : Graph) :
    (nodeStatements count nodes).foldlM Canvas.draw ⟨identifiers count, graph⟩ =
      some ⟨identifiers (count + nodes.length), { graph with nodes := graph.nodes ++ nodes }⟩ := by
  induction nodes generalizing count graph with
  | nil => rw [nodeStatements, List.foldlM_nil, List.append_nil]; rfl
  | cons node nodes ih =>
      have next : identifiers count ++ [identifier count] = identifiers (count + 1) := by
        rw [identifiers, identifiers, List.range_succ, List.map_append, List.map_singleton]
      have drawn : Canvas.draw ⟨identifiers count, graph⟩ (node.statement count) =
          some ⟨identifiers (count + 1), { graph with nodes := graph.nodes ++ [node] }⟩ := by
        rw [Node.statement, Canvas.draw, node?_attributes, Option.bind_eq_bind, Option.bind_some,
          Canvas.number?_next, next]
        rfl
      have length : count + 1 + nodes.length = count + (node :: nodes).length := by
        rw [List.length_cons]
        omega
      rw [nodeStatements, List.foldlM_cons, drawn, Option.bind_eq_bind, Option.bind_some, ih, length,
        List.append_assoc, List.singleton_append]

/-- **The statements of arrows** between nodes that are there add the arrows. -/
theorem foldlM_arrowStatements {arrows : List Arrow} {count : Nat}
    (inside : ∀ arrow ∈ arrows, arrow.source < count ∧ arrow.target < count) (graph : Graph) :
    (arrows.map Arrow.statement).foldlM Canvas.draw ⟨identifiers count, graph⟩ =
      some ⟨identifiers count, { graph with arrows := graph.arrows ++ arrows }⟩ := by
  induction arrows generalizing graph with
  | nil => rw [List.map_nil, List.foldlM_nil, List.append_nil]; rfl
  | cons arrow arrows ih =>
      rw [List.forall_mem_cons] at inside
      have pattern : pattern? [("label".toList, arrow.label)] = some arrow.pattern :=
        Text.unescape?_escape arrow.pattern
      have drawn : Canvas.draw ⟨identifiers count, graph⟩ arrow.statement =
          some ⟨identifiers count, { graph with arrows := graph.arrows ++ [arrow] }⟩ := by
        rw [Arrow.statement, Canvas.draw, Canvas.number?_identifier inside.1.1,
          Canvas.number?_identifier inside.1.2, pattern]
        rfl
      rw [List.map_cons, List.foldlM_cons, drawn, Option.bind_eq_bind, Option.bind_some, ih inside.2,
        List.append_assoc, List.singleton_append]

/-- **A graph is read back** from its text, if its label is the content of a string and its arrows join nodes
that it has. -/
theorem read?_render {graph : Graph} (isContent : IsContent graph.label)
    (inside : ∀ arrow ∈ graph.arrows,
      arrow.source < graph.nodes.length ∧ arrow.target < graph.nodes.length) :
    read? graph.render = some graph := by
  have nodes := foldlM_nodeStatements graph.nodes 0 ⟨graph.label, [], []⟩
  have arrows := foldlM_arrowStatements inside ⟨graph.label, graph.nodes, []⟩
  rw [Nat.zero_add] at nodes
  rw [read?, statements?_render isContent, Option.bind_eq_bind, Option.bind_some, statements]
  change (List.foldlM Canvas.draw ⟨identifiers 0, ⟨graph.label, [], []⟩⟩
    (nodeStatements 0 graph.nodes ++ graph.arrows.map Arrow.statement) >>= _) = _
  rw [List.foldlM_append, nodes]
  change (List.foldlM Canvas.draw ⟨identifiers graph.nodes.length, ⟨graph.label, graph.nodes, []⟩⟩
    (graph.arrows.map Arrow.statement) >>= _) = _
  rw [arrows]
  rfl

/-- An edge to a node that is not there is not read. -/
example : read? "digraph \x7b\n  node_0 -> node_1 [label=\x22a\x22];\n\x7d\n".toList = none := by
  decide

end Lexer.Graph
