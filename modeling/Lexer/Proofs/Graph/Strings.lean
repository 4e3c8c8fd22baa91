import Lexer.Graph
import Lexer.Proofs.Text.Escaping

/-! # Strings in the text of a graph

**A string** of the graph language ends at the first quotation mark that no backslash takes along.  The text
of a graph is scanned by this rule alone, and then every string that was written is found from its first to
its last character: escaped names and patterns hold no quotation mark without its backslash, and no backslash
at their end.  What the strings say is read off them, so a text shows the names of all states, the numbers of
their rules and the patterns of all arrows, whatever characters they hold. -/

namespace Lexer.Graph

/-! ## (1) Scanning strings -/

/-- **Pieces of graph text.** -/
inductive Piece where
  /-- A character outside of strings. -/
  | char (c : Char)
  /-- A string, without its quotation marks. -/
  | string (content : Text)
  deriving DecidableEq, Repr

mutual

/-- **Scan graph text**, outside of strings.  Nothing is answered if a string has no end. -/
def scan? : Text → Option (List Piece)
  | [] => some []
  | '\x22' :: rest => scanString? [] rest
  | c :: rest => (scan? rest).map fun pieces => .char c :: pieces

/-- Scan a string, the start of which is given in reverse, and the text behind it. -/
def scanString? (start : Text) : Text → Option (List Piece)
  | [] => none
  | '\x22' :: rest => (scan? rest).map fun pieces => .string start.reverse :: pieces
  | '\\' :: c :: rest => scanString? (c :: '\\' :: start) rest
  | c :: rest => scanString? (c :: start) rest

end

/-- The text that a piece is written as. -/
def Piece.text : Piece → Text
  | .char c => [c]
  | .string content => quote content

/-- The text that some pieces are written as. -/
def written (pieces : List Piece) : Text :=
  pieces.flatMap Piece.text

/-- **The content of a string** has no quotation mark without a backslash, and no backslash that has nothing
to take along. -/
inductive IsContent : Text → Prop where
  /-- Nothing is left. -/
  | nil : IsContent []
  /-- A character without a backslash. -/
  | plain {c : Char} {rest : Text} (noQuote : c ≠ '\x22') (noBackslash : c ≠ '\\')
      (behind : IsContent rest) : IsContent (c :: rest)
  /-- A character with a backslash. -/
  | escaped {rest : Text} (c : Char) (behind : IsContent rest) : IsContent ('\\' :: c :: rest)

/-- **A piece is whole** if it ends where it is written to end. -/
def Piece.IsWhole : Piece → Prop
  | .char c => c ≠ '\x22'
  | .string content => IsContent content

/-- A character outside of strings is scanned. -/
theorem scan?_cons {c : Char} (noQuote : c ≠ '\x22') (rest : Text) :
    scan? (c :: rest) = (scan? rest).map fun pieces => .char c :: pieces := by
  rw [scan?]
  exact noQuote

/-- A character without a backslash is scanned. -/
theorem scanString?_plain {c : Char} (noQuote : c ≠ '\x22') (noBackslash : c ≠ '\\')
    (start rest : Text) : scanString? start (c :: rest) = scanString? (c :: start) rest := by
  rw [scanString?]
  · exact noQuote
  · rintro d after rfl
    exact absurd rfl noBackslash

/-- A string is scanned up to its end. -/
theorem scanString?_append {content : Text} (isContent : IsContent content) (start rest : Text) :
    scanString? start (content ++ '\x22' :: rest) =
      (scan? rest).map fun pieces => .string (start.reverse ++ content) :: pieces := by
  induction isContent generalizing start with
  | nil => rw [List.nil_append, List.append_nil, scanString?]
  | plain noQuote noBackslash _ ih =>
      rw [List.cons_append, scanString?_plain noQuote noBackslash, ih, List.reverse_cons,
        List.append_assoc, List.singleton_append]
  | escaped c _ ih =>
      rw [List.cons_append, List.cons_append, scanString?, ih, List.reverse_cons, List.reverse_cons,
        List.append_assoc, List.append_assoc]
      rfl

/-- **Whole pieces** are scanned as they were written. -/
theorem scan?_written {pieces : List Piece} (whole : ∀ piece ∈ pieces, piece.IsWhole) :
    scan? (written pieces) = some pieces := by
  induction pieces with
  | nil => rfl
  | cons piece pieces ih =>
      rw [List.forall_mem_cons] at whole
      rw [written, List.flatMap_cons, ← written]
      cases piece with
      | char c => rw [Piece.text, List.singleton_append, scan?_cons whole.1, ih whole.2]; rfl
      | string content =>
          have behind : quote content ++ written pieces = '\x22' :: (content ++ '\x22' :: written pieces) := by
            rw [quote, List.cons_append, List.cons_append, List.append_assoc, List.singleton_append]
          rw [Piece.text, behind, scan?, scanString?_append whole.1, ih whole.2]
          rfl

/-! ## (2) Contents of strings -/

/-- Contents of strings, one behind the other. -/
theorem IsContent.append {left right : Text} (isContent : IsContent left) (behind : IsContent right) :
    IsContent (left ++ right) := by
  induction isContent with
  | nil => exact behind
  | plain noQuote noBackslash _ ih => exact .plain noQuote noBackslash ih
  | escaped c _ ih => exact .escaped c ih

/-- **A text without quotation marks and backslashes** is the content of a string. -/
theorem isContent_of_free {text : Text} (noQuote : '\x22' ∉ text) (noBackslash : '\\' ∉ text) :
    IsContent text := by
  induction text with
  | nil => exact .nil
  | cons c text ih =>
      rw [List.mem_cons, not_or] at noQuote noBackslash
      exact .plain (Ne.symm noQuote.1) (Ne.symm noBackslash.1) (ih noQuote.2 noBackslash.2)

/-- An escaped character is the content of a string. -/
theorem isContent_escapeChar (c : Char) : IsContent (Text.escapeChar c) := by
  rw [Text.escapeChar]
  split
  · exact .escaped 't' .nil
  split
  · exact .escaped 'r' .nil
  split
  · exact .escaped 'n' .nil
  split
  · exact .escaped c .nil
  split
  · next unmarked _ =>
      simp only [Bool.or_eq_true, decide_eq_true_iff, not_or] at unmarked
      exact .plain unmarked.1.2 unmarked.2 .nil
  · have digits : IsContent (Text.hexDigits c.toNat) :=
      isContent_of_free (Text.not_mem_hexDigits (by decide) c.toNat)
        (Text.not_mem_hexDigits (by decide) c.toNat)
    exact .escaped 'u' (.plain (by decide) (by decide)
      (digits.append (isContent_of_free (by decide) (by decide))))

/-- **An escaped text** is the content of a string. -/
theorem isContent_escape (text : Text) : IsContent (Text.escape text) := by
  induction text with
  | nil => exact .nil
  | cons c text ih =>
      rw [Text.escape_cons]
      exact (isContent_escapeChar c).append ih

/-- Digits are the content of a string. -/
theorem isContent_write (number : Nat) : IsContent (Decimal.write number) := by
  have digits := List.all_eq_true.1 (Decimal.all_isDigit_write number)
  refine isContent_of_free (fun member => ?_) (fun member => ?_)
  · exact absurd (digits _ member) (by decide)
  · exact absurd (digits _ member) (by decide)

/-- **The label of a node** is the content of a string. -/
theorem Node.isContent_label (node : Node) : IsContent node.label := by
  have count := (isContent_write node.rules).append
    (@isContent_of_free " rules".toList (by decide) (by decide))
  have name := isContent_escape node.name
  rw [Node.label, List.append_assoc, List.cons_append]
  exact name.append (.plain (by decide) (by decide) count)

/-! ## (3) The pieces of a graph -/

/-- Characters outside of strings. -/
def chars (text : Text) : List Piece :=
  text.map .char

/-- A string between characters. -/
def framed (front content behind : Text) : List Piece :=
  chars front ++ .string content :: chars behind

/-- The pieces of the node with a number. -/
def Node.pieces (number : Nat) (node : Node) : List Piece :=
  framed ("  ".toList ++ identifier number ++ " [label=".toList) node.label
    ((if node.isStart then startAttributes else []) ++ "];\n".toList)

/-- The pieces of some nodes, the first of which has a given number. -/
def nodePieces (number : Nat) : List Node → List Piece
  | [] => []
  | node :: rest => node.pieces number ++ nodePieces (number + 1) rest

/-- The label of an arrow. -/
def Arrow.label (arrow : Arrow) : Text :=
  Text.escape arrow.pattern

/-- The pieces of an arrow. -/
def Arrow.pieces (arrow : Arrow) : List Piece :=
  framed ("  ".toList ++ identifier arrow.source ++ " -> ".toList ++ identifier arrow.target ++
    " [label=".toList) arrow.label "];\n".toList

/-- **The pieces of a graph**: the strings in them are its label and those of its nodes and arrows. -/
def pieces (graph : Graph) : List Piece :=
  framed ("digraph \x7b\n".toList ++ "  label=".toList) graph.label
      (";\n".toList ++ "  rankdir=LR;\n".toList) ++
    (nodePieces 0 graph.nodes ++ (graph.arrows.flatMap Arrow.pieces ++ chars "\x7d\n".toList))

/-- Pieces are written one behind the other. -/
theorem written_append (left right : List Piece) :
    written (left ++ right) = written left ++ written right :=
  List.flatMap_append

/-- Characters are written as they are. -/
theorem written_chars (text : Text) : written (chars text) = text := by
  induction text with
  | nil => rfl
  | cons c text ih => exact congrArg (c :: ·) ih

/-- A string between characters is written with its quotation marks. -/
theorem written_framed (front content behind : Text) :
    written (framed front content behind) = front ++ (quote content ++ behind) := by
  have string : written (.string content :: chars behind) = quote content ++ written (chars behind) := rfl
  rw [framed, written_append, written_chars, string, written_chars]

/-- The pieces of some nodes are their lines. -/
theorem written_nodePieces (number : Nat) (nodes : List Node) :
    written (nodePieces number nodes) = nodeLines number nodes := by
  induction nodes generalizing number with
  | nil => rfl
  | cons node nodes ih =>
      rw [nodePieces, written_append, Node.pieces, written_framed, ih, nodeLines]
      -- unfolded without an equation, which is slow to derive over the literals of a line
      delta Node.line
      simp only [List.append_assoc]

/-- The pieces of some arrows are their lines. -/
theorem written_arrows (arrows : List Arrow) :
    written (arrows.flatMap Arrow.pieces) = arrows.flatMap Arrow.line := by
  induction arrows with
  | nil => rfl
  | cons arrow arrows ih =>
      rw [List.flatMap_cons, List.flatMap_cons, written_append, Arrow.pieces, written_framed, ih,
        Arrow.label]
      delta Arrow.line
      simp only [List.append_assoc]

/-- **The pieces of a graph** are its text. -/
theorem written_pieces (graph : Graph) : written graph.pieces = graph.render := by
  rw [pieces, written_append, written_framed, written_append, written_nodePieces, written_append,
    written_arrows, written_chars]
  delta render labelLine
  simp only [List.append_assoc]

/-- Characters that are no quotation marks are whole. -/
theorem isWhole_chars {text : Text} (noQuote : '\x22' ∉ text) : ∀ piece ∈ chars text, piece.IsWhole := by
  intro piece member
  obtain ⟨c, isChar, rfl⟩ := List.mem_map.1 member
  rintro rfl
  exact noQuote isChar

/-- A string between characters is whole, as long as these are no quotation marks. -/
theorem isWhole_framed {front content behind : Text} (noQuote : '\x22' ∉ front)
    (isContent : IsContent content) (noQuoteBehind : '\x22' ∉ behind) :
    ∀ piece ∈ framed front content behind, piece.IsWhole := by
  rw [framed, List.forall_mem_append, List.forall_mem_cons]
  exact ⟨isWhole_chars noQuote, isContent, isWhole_chars noQuoteBehind⟩

/-- An identifier has no quotation mark. -/
theorem quote_not_mem_identifier (number : Nat) : '\x22' ∉ identifier number := by
  have digits := List.all_eq_true.1 (Decimal.all_isDigit_write number)
  intro member
  rcases List.mem_append.1 member with isFront | isDigit
  · exact absurd isFront (by decide)
  · exact absurd (digits _ isDigit) (by decide)

/-- The pieces of some nodes are whole. -/
theorem isWhole_nodePieces (number : Nat) (nodes : List Node) :
    ∀ piece ∈ nodePieces number nodes, piece.IsWhole := by
  induction nodes generalizing number with
  | nil => exact fun piece absent => absurd absent List.not_mem_nil
  | cons node nodes ih =>
      have front : '\x22' ∉ "  ".toList ++ identifier number ++ " [label=".toList := by
        simp [quote_not_mem_identifier]
      have behind : '\x22' ∉ (if node.isStart then startAttributes else []) ++ "];\n".toList := by
        split
        · decide
        · decide
      rw [nodePieces, List.forall_mem_append]
      exact ⟨isWhole_framed front node.isContent_label behind, ih (number + 1)⟩

/-- The pieces of an arrow are whole. -/
theorem Arrow.isWhole_pieces (arrow : Arrow) : ∀ piece ∈ arrow.pieces, piece.IsWhole := by
  have front : '\x22' ∉ "  ".toList ++ identifier arrow.source ++ " -> ".toList ++
      identifier arrow.target ++ " [label=".toList := by
    simp [quote_not_mem_identifier]
  exact isWhole_framed front (isContent_escape arrow.pattern) (by decide)

/-- **The pieces of a graph** are whole, if its label is the content of a string. -/
theorem isWhole_pieces {graph : Graph} (isContent : IsContent graph.label) :
    ∀ piece ∈ graph.pieces, piece.IsWhole := by
  simp only [pieces, List.forall_mem_append, List.forall_mem_flatMap]
  exact ⟨isWhole_framed (by decide) isContent (by decide), isWhole_nodePieces 0 graph.nodes,
    fun arrow _ => arrow.isWhole_pieces, isWhole_chars (by decide)⟩

/-- **The text of a graph** is scanned as the pieces that it was written from. -/
theorem scan?_render {graph : Graph} (isContent : IsContent graph.label) :
    scan? graph.render = some graph.pieces := by
  rw [← written_pieces, scan?_written (isWhole_pieces isContent)]

/-- The content of a piece that is a string. -/
def Piece.content? : Piece → Option Text
  | .char _ => none
  | .string content => some content

/-- **The strings** among some pieces. -/
def strings (pieces : List Piece) : List Text :=
  pieces.filterMap Piece.content?

/-- Strings among pieces, one behind the other. -/
theorem strings_append (left right : List Piece) :
    strings (left ++ right) = strings left ++ strings right :=
  List.filterMap_append

/-- There are no strings among characters. -/
theorem strings_chars (text : Text) : strings (chars text) = [] := by
  rw [strings, List.filterMap_eq_nil_iff]
  intro piece member
  obtain ⟨c, -, rfl⟩ := List.mem_map.1 member
  rfl

/-- A string between characters is the only one. -/
theorem strings_framed (front content behind : Text) : strings (framed front content behind) = [content] := by
  have string : strings (.string content :: chars behind) = content :: strings (chars behind) := rfl
  rw [framed, strings_append, strings_chars, string, strings_chars, List.nil_append]

/-- The strings among the pieces of some nodes are their labels. -/
theorem strings_nodePieces (number : Nat) (nodes : List Node) :
    strings (nodePieces number nodes) = nodes.map Node.label := by
  induction nodes generalizing number with
  | nil => rfl
  | cons node nodes ih =>
      rw [nodePieces, strings_append, Node.pieces, strings_framed, ih, List.singleton_append,
        List.map_cons]

/-- The strings among the pieces of some arrows are their labels. -/
theorem strings_arrows (arrows : List Arrow) :
    strings (arrows.flatMap Arrow.pieces) = arrows.map Arrow.label := by
  induction arrows with
  | nil => rfl
  | cons arrow arrows ih =>
      rw [List.flatMap_cons, strings_append, Arrow.pieces, strings_framed, ih, List.singleton_append,
        List.map_cons]

/-- **The strings of a graph** are its label, those of its nodes and those of its arrows. -/
theorem strings_pieces (graph : Graph) :
    strings graph.pieces =
      graph.label :: (graph.nodes.map Node.label ++ graph.arrows.map Arrow.label) := by
  rw [pieces, strings_append, strings_framed, strings_append, strings_nodePieces, strings_append,
    strings_arrows, strings_chars, List.append_nil, List.singleton_append]

/-! ## (4) What strings show -/

/-- **The state that the label of a node shows**: its name and the number of its rules. -/
def shownState? (label : Text) : Option (Text × Nat) := do
  let (name, below) ← Text.cut? '\n' label
  let (digits, _) ← Text.cut? ' ' below
  return (← Text.unescape? name, ← Decimal.read? digits)

/-- **What the text of a graph shows.** -/
structure Shown where
  /-- The label of the graph. -/
  label : Text
  /-- The names of the states, with the numbers of their rules. -/
  states : List (Text × Nat)
  /-- The patterns of the arrows. -/
  patterns : List Text
  deriving DecidableEq, Repr

/-- **Read what the text of a graph shows** off its strings: the first one is its label, and the others are
those of nodes or of arrows. -/
def shown? (text : Text) : Option Shown := do
  match strings (← scan? text) with
  | [] => none
  | label :: labels => some ⟨label, labels.filterMap shownState?, labels.filterMap Text.unescape?⟩

/-- **The label of a node** shows its name and the number of its rules. -/
theorem shownState?_label (node : Node) : shownState? node.label = some (node.name, node.rules) := by
  have digits := List.all_eq_true.1 (Decimal.all_isDigit_write node.rules)
  have noSpace : ' ' ∉ Decimal.write node.rules := fun member => absurd (digits _ member) (by decide)
  have name : Text.cut? '\n' node.label =
      some (Text.escape node.name, Decimal.write node.rules ++ " rules".toList) := by
    refine Text.cut?_eq_some_iff.2 ⟨?_, Text.feed_not_mem_escape node.name⟩
    rw [Node.label, List.append_assoc, List.cons_append]
  have count : Text.cut? ' ' (Decimal.write node.rules ++ " rules".toList) =
      some (Decimal.write node.rules, "rules".toList) :=
    Text.cut?_eq_some_iff.2 ⟨rfl, noSpace⟩
  rw [shownState?, name]
  simp only [Option.bind_eq_bind, Option.bind_some]
  rw [count]
  simp only [Option.bind_some]
  rw [Text.unescape?_escape, Decimal.read?_write]
  rfl

/-- The label of an arrow shows no state, as it is one line. -/
theorem shownState?_arrow (arrow : Arrow) : shownState? arrow.label = none := by
  have oneLine : Text.cut? '\n' arrow.label = none := by
    cases cut : Text.cut? '\n' arrow.label with
    | none => rfl
    | some parts =>
        obtain ⟨before, after⟩ := parts
        have feed : '\n' ∈ arrow.label := by
          rw [(Text.cut?_eq_some_iff.1 cut).1]
          exact List.mem_append_right before List.mem_cons_self
        exact absurd feed (Text.feed_not_mem_escape arrow.pattern)
  rw [shownState?, oneLine]
  rfl

/-- The label of a node shows no pattern, as it has a second line. -/
theorem unescape?_label (node : Node) : Text.unescape? node.label = none := by
  have second : ∀ below, Text.unescape? ('\n' :: below) = none := by
    intro below
    rw [Text.unescape?, if_neg (by decide)]
    · exact fun after isMark => absurd isMark (by decide)
    · exact fun c after isMark => absurd isMark (by decide)
  rw [Node.label, List.append_assoc, Text.unescape?_escape_append, List.cons_append, second]
  rfl

/-- The states that the labels of a graph show are those of its nodes. -/
theorem filterMap_shownState? (graph : Graph) :
    (graph.nodes.map Node.label ++ graph.arrows.map Arrow.label).filterMap shownState? =
      graph.nodes.map fun node => (node.name, node.rules) := by
  have ofNodes : shownState? ∘ Node.label = some ∘ fun node => (node.name, node.rules) :=
    funext shownState?_label
  have noArrows : (graph.arrows.map Arrow.label).filterMap shownState? = [] := by
    rw [List.filterMap_map, List.filterMap_eq_nil_iff]
    exact fun arrow _ => shownState?_arrow arrow
  rw [List.filterMap_append, noArrows, List.append_nil, List.filterMap_map, ofNodes,
    List.filterMap_eq_map]

/-- The patterns that the labels of a graph show are those of its arrows. -/
theorem filterMap_unescape? (graph : Graph) :
    (graph.nodes.map Node.label ++ graph.arrows.map Arrow.label).filterMap Text.unescape? =
      graph.arrows.map Arrow.pattern := by
  have noNodes : (graph.nodes.map Node.label).filterMap Text.unescape? = [] := by
    rw [List.filterMap_map, List.filterMap_eq_nil_iff]
    exact fun node _ => unescape?_label node
  have ofArrows : Text.unescape? ∘ Arrow.label = some ∘ Arrow.pattern :=
    funext fun arrow => Text.unescape?_escape arrow.pattern
  rw [List.filterMap_append, noNodes, List.nil_append, List.filterMap_map, ofArrows,
    List.filterMap_eq_map]

/-- The nodes of some states have their names and numbers of rules. -/
theorem map_nodesFrom (start position : Nat) (states : List State) :
    (nodesFrom start position states).map (fun node => (node.name, node.rules)) =
      states.map fun state => (state.name, state.rules.length) := by
  induction states generalizing position with
  | nil => rfl
  | cons state states ih => rw [nodesFrom, List.map_cons, ih, List.map_cons]

/-- **Labels of nodes** are the same only for the same name and the same number of rules. -/
theorem Node.label_inj (left right : Node) :
    left.label = right.label ↔ left.name = right.name ∧ left.rules = right.rules := by
  constructor
  · intro same
    have known := shownState?_label left
    rw [same, shownState?_label right] at known
    exact ⟨congrArg Prod.fst (Option.some.inj known).symm, congrArg Prod.snd (Option.some.inj known).symm⟩
  · rintro ⟨sameName, sameRules⟩
    rw [Node.label, Node.label, sameName, sameRules]

/-- **The text of a graph is readable.**  Scanned by the rule of strings alone, it falls into the pieces that it
was written from, so that every string ends where it was written to end: its strings are the label of the graph,
those of the nodes and those of the arrows.  They show the name and the number of rules of every state and the
pattern of every arrow, and they are the same only where these are. -/
theorem render_readable (model : Model) {label : Text} (noQuote : '\x22' ∉ label)
    (noBackslash : '\\' ∉ label) :
    let graph := ofModel model label
    (written graph.pieces = graph.render ∧ scan? graph.render = some graph.pieces ∧
      strings graph.pieces = label :: (graph.nodes.map Node.label ++ graph.arrows.map Arrow.label)) ∧
    shown? graph.render = some ⟨label, model.states.map fun state => (state.name, state.rules.length),
      graph.arrows.map Arrow.pattern⟩ ∧
    (∀ left right : Node, left.label = right.label ↔ left.name = right.name ∧ left.rules = right.rules) ∧
    (∀ left right : Arrow, left.label = right.label ↔ left.pattern = right.pattern) ∧
    ∀ (node : Node) (arrow : Arrow), node.label ≠ arrow.label := by
  intro graph
  have scanned : scan? graph.render = some graph.pieces :=
    scan?_render (isContent_of_free noQuote noBackslash)
  refine ⟨⟨written_pieces graph, scanned, strings_pieces graph⟩, ?_, Node.label_inj,
    fun left right => Text.escape_inj, ?_⟩
  · have names : graph.nodes.map (fun node => (node.name, node.rules)) =
        model.states.map fun state => (state.name, state.rules.length) :=
      map_nodesFrom model.start 0 model.states
    rw [shown?, scanned, Option.bind_eq_bind, Option.bind_some, strings_pieces]
    simp only [filterMap_shownState?, filterMap_unescape?, names]
    rfl
  · intro node arrow same
    have known := shownState?_label node
    rw [same, shownState?_arrow] at known
    exact nomatch known

/-- Two states whose names hold a quotation mark, a backslash, a line feed and a brace, and a pattern that looks
like the end of a string. -/
theorem render_readable_quotes :
    let rule : Rule := ⟨⟨[], 0, 0⟩, [.skip, .enter ['\x22']], "\\\x22];č".toList⟩
    let model : Model := ⟨[⟨['\x22'], [rule]⟩, ⟨['\\', '\n', '\x7b'], []⟩],
      [(['\x22'], 0), (['\\', '\n', '\x7b'], 1)], 0⟩
    '\x22' ∉ "lexer".toList ∧ '\\' ∉ "lexer".toList ∧
    shown? (ofModel model "lexer".toList).render =
      some ⟨"lexer".toList, [(['\x22'], 1), (['\\', '\n', '\x7b'], 0)], ["\\\x22];č".toList]⟩ := by
  intro rule model
  have noQuote : '\x22' ∉ "lexer".toList := by decide
  have noBackslash : '\\' ∉ "lexer".toList := by decide
  exact ⟨noQuote, noBackslash, (render_readable model noQuote noBackslash).2.1⟩

end Lexer.Graph
