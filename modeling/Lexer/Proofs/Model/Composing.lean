import Lexer.Model.Rule
import Lexer.Proofs.Model.Directives
import Lexer.Specification.Warnings
import Mathlib.Tactic.Common

/-! # Composing actions

The actions of a rule come from its action name and from the lines below it, one by one: a move back goes in
front of what is there, anything else behind it.  **Composing has a closed form.**  The first malformed line is
its fault; without one, the moves back come first, the last line in front, then the classification of the action
name, then the changes of state and new lines in the order of their lines.  All that is said about composed
actions follows from this form: what is among them, which token and which states they lead to, and that nothing
depends on how moves back, other directives and plain lines are mixed. -/

namespace Lexer

/-! ## (1) One line -/

namespace Directive

/-- **What a directive asks for**: a new line, a move back by fewer characters than the limit, or a change of
state. -/
theorem cases_of_read {line : Text} {action : Action}
    (read : Directive.read line = .ok (some action)) :
    action = .newLine ∨ (∃ count < countLimit, action = .rewind count) ∨
      ∃ target, action = .enter target := by
  cases read_eq_iff.1 read with
  | newLine => exact .inl rfl
  | rewind small => exact .inr (.inl ⟨_, small, rfl⟩)
  | enter => exact .inr (.inr ⟨_, rfl⟩)

/-- **A fault carries its line** as it was given. -/
theorem line_of_read_error {line : Text} {fault : Fault} (malformed : read line = .error fault) :
    fault.line = line := by
  cases read_eq_iff.1 malformed with
  | malformed => rfl

/-- The move back that a line asks for. -/
def rewind? (line : Text) : Option Action :=
  match read line with
  | .ok (some (.rewind count)) => some (.rewind count)
  | _ => none

/-- What a line asks for that goes forward: a change of state or a new line. -/
def forward? (line : Text) : Option Action :=
  match read line with
  | .ok (some (.enter state)) => some (.enter state)
  | .ok (some .newLine) => some .newLine
  | _ => none

/-- The fault of a malformed line. -/
def fault? (line : Text) : Option Fault :=
  match read line with
  | .error fault => some fault
  | .ok _ => none

/-- A line asks for a move back exactly if that is what is read. -/
theorem rewind?_eq_some_iff {line : Text} {action : Action} :
    rewind? line = some action ↔
      ∃ count, action = .rewind count ∧ read line = .ok (some action) := by
  unfold rewind?
  split
  · next count asked =>
      rw [asked, Option.some.injEq]
      constructor
      · rintro rfl
        exact ⟨count, rfl, rfl⟩
      · rintro ⟨its, rfl, same⟩
        exact Option.some.inj (Except.ok.inj same)
  · next other =>
      refine ⟨nofun, ?_⟩
      rintro ⟨count, rfl, asked⟩
      exact absurd asked (other count)

/-- A line asks for a change of state or a new line exactly if that is what is read. -/
theorem forward?_eq_some_iff {line : Text} {action : Action} :
    forward? line = some action ↔
      ((∃ state, action = .enter state) ∨ action = .newLine) ∧ read line = .ok (some action) := by
  unfold forward?
  split
  · next state asked =>
      rw [asked, Option.some.injEq, Except.ok.injEq, Option.some.injEq]
      exact ⟨fun same => ⟨.inl ⟨state, same.symm⟩, same⟩, And.right⟩
  · next asked =>
      rw [asked, Option.some.injEq, Except.ok.injEq, Option.some.injEq]
      exact ⟨fun same => ⟨.inr same.symm, same⟩, And.right⟩
  · next notEnter notNewLine =>
      refine ⟨nofun, ?_⟩
      rintro ⟨⟨state, rfl⟩ | rfl, asked⟩
      · exact absurd asked (notEnter state)
      · exact absurd asked notNewLine

/-- A line has a fault exactly if that is what is read. -/
theorem fault?_eq_some_iff {line : Text} {fault : Fault} :
    fault? line = some fault ↔ read line = .error fault := by
  unfold fault?
  split
  · next malformed => rw [malformed, Option.some.injEq, Except.error.injEq]
  · next placed known => rw [known]; exact ⟨nofun, nofun⟩

/-- A line has no fault exactly if something is read. -/
theorem fault?_eq_none_iff {line : Text} :
    fault? line = none ↔ ∃ placed, read line = .ok placed := by
  unfold fault?
  split
  · next malformed => rw [malformed]; exact ⟨nofun, nofun⟩
  · next placed known => exact ⟨fun _ => ⟨placed, known⟩, fun _ => rfl⟩

end Directive

namespace Action

open Directive (rewind? forward? fault?)

/-! ## (2) All lines -/

/-- **The closed form** of placing the actions of some lines, around any actions that are there. -/
theorem foldlM_place (actions : List Action) (lines : List Text) :
    lines.foldlM (fun actions line => (Directive.read line).map (place actions)) actions =
      match lines.findSome? fault? with
      | some fault => .error fault
      | none => .ok ((lines.filterMap rewind?).reverse ++ actions ++ lines.filterMap forward?) := by
  -- each line adds to what is there, at one of the two ends
  induction lines generalizing actions with
  | nil =>
      rw [List.findSome?_nil, List.filterMap_nil, List.filterMap_nil, List.append_nil]
      rfl
  | cons line lines ih =>
      rw [List.foldlM_cons, List.findSome?_cons, List.filterMap_cons, List.filterMap_cons]
      cases asked : Directive.read line with
      | error fault =>
          rw [Directive.fault?_eq_some_iff.2 asked]
          rfl
      | ok placed =>
          rw [Directive.fault?_eq_none_iff.2 ⟨placed, asked⟩]
          refine (ih (place actions placed)).trans ?_
          cases placed with
          | none => simp [rewind?, forward?, asked, place]
          | some action =>
              rcases Directive.cases_of_read asked with rfl | ⟨count, -, rfl⟩ | ⟨target, rfl⟩
              · simp [rewind?, forward?, asked, place]
              · simp [rewind?, forward?, asked, place]
              · simp [rewind?, forward?, asked, place]

/-- **The closed form** of composed actions. -/
theorem compose_eq (name : Text) (lines : List Text) :
    compose name lines = match lines.findSome? fault? with
      | some fault => .error fault
      | none => .ok ((lines.filterMap rewind?).reverse ++ classify name :: lines.filterMap forward?) := by
  rw [compose, foldlM_place]
  simp only [List.append_assoc, List.singleton_append]

/-- **The fault** of composing is that of the first malformed line, and carries that line. -/
theorem compose_eq_error_iff {name : Text} {lines : List Text} {fault : Directive.Fault} :
    compose name lines = .error fault ↔ ∃ before after, lines = before ++ fault.line :: after ∧
      (∀ earlier ∈ before, ∃ placed, Directive.read earlier = .ok placed) ∧
      Directive.read fault.line = .error fault := by
  have first : compose name lines = .error fault ↔ lines.findSome? fault? = some fault := by
    rw [compose_eq]
    cases lines.findSome? fault? with
    | none => exact ⟨nofun, nofun⟩
    | some its => rw [Except.error.injEq, Option.some.injEq]
  rw [first, List.findSome?_eq_some_iff]
  simp only [Directive.fault?_eq_some_iff, Directive.fault?_eq_none_iff]
  constructor
  · rintro ⟨before, line, after, rfl, malformed, readable⟩
    obtain rfl := Directive.line_of_read_error malformed
    exact ⟨before, after, rfl, readable, malformed⟩
  · rintro ⟨before, after, split, readable, malformed⟩
    exact ⟨before, fault.line, after, split, malformed, readable⟩

/-- **Composing succeeds** exactly if no line is malformed, and with these actions. -/
theorem compose_eq_ok_iff {name : Text} {lines : List Text} {actions : List Action} :
    compose name lines = .ok actions ↔
      (∀ line ∈ lines, ∃ placed, Directive.read line = .ok placed) ∧
      actions = (lines.filterMap rewind?).reverse ++ classify name :: lines.filterMap forward? := by
  simp only [← Directive.fault?_eq_none_iff, ← List.findSome?_eq_none_iff]
  rw [compose_eq]
  cases lines.findSome? fault? with
  | none => rw [Except.ok.injEq, eq_comm, and_iff_right rfl]
  | some fault => exact ⟨nofun, nofun⟩

/-- **An action is composed** exactly if the name asks for it, or a line does. -/
theorem mem_compose_iff {name : Text} {lines : List Text} {actions : List Action}
    (composed : compose name lines = .ok actions) {action : Action} :
    action ∈ actions ↔
      action = classify name ∨ ∃ line ∈ lines, Directive.read line = .ok (some action) := by
  obtain ⟨-, rfl⟩ := compose_eq_ok_iff.1 composed
  simp only [List.mem_append, List.mem_reverse, List.mem_cons, List.mem_filterMap,
    Directive.rewind?_eq_some_iff, Directive.forward?_eq_some_iff]
  constructor
  · rintro (⟨line, member, _, _, asked⟩ | classified | ⟨line, member, _, asked⟩)
    · exact .inr ⟨line, member, asked⟩
    · exact .inl classified
    · exact .inr ⟨line, member, asked⟩
  · rintro (classified | ⟨line, member, asked⟩)
    · exact .inr (.inl classified)
    · rcases Directive.cases_of_read asked with rfl | ⟨count, -, rfl⟩ | ⟨target, rfl⟩
      · exact .inr (.inr ⟨line, member, .inr rfl, asked⟩)
      · exact .inl ⟨line, member, count, rfl, asked⟩
      · exact .inr (.inr ⟨line, member, .inl ⟨target, rfl⟩, asked⟩)

/-! ## (3) The shape of composed actions -/

/-- An action that classifies its match. -/
def classifies : Action → Bool
  | .skip => true
  | .token _ => true
  | _ => false

/-- The classification that a name asks for is one. -/
theorem classifies_classify (name : Text) : (classify name).classifies = true := by
  rw [classify]
  split
  · rfl
  · rfl

/-- What goes in front is a move back. -/
theorem exists_rewind_of_mem {lines : List Text} {action : Action}
    (member : action ∈ lines.filterMap rewind?) : ∃ count, action = .rewind count := by
  obtain ⟨line, -, asked⟩ := List.mem_filterMap.1 member
  obtain ⟨count, same, -⟩ := Directive.rewind?_eq_some_iff.1 asked
  exact ⟨count, same⟩

/-- What goes behind is a change of state or a new line. -/
theorem enter_or_newLine_of_mem {lines : List Text} {action : Action}
    (member : action ∈ lines.filterMap forward?) :
    (∃ state, action = .enter state) ∨ action = .newLine := by
  obtain ⟨line, -, asked⟩ := List.mem_filterMap.1 member
  exact (Directive.forward?_eq_some_iff.1 asked).1

variable {name : Text} {lines : List Text} {actions : List Action}

/-- **One classification** is among composed actions, that of the action name. -/
theorem filter_classifies_of_compose (composed : compose name lines = .ok actions) :
    actions.filter classifies = [classify name] := by
  obtain ⟨-, rfl⟩ := compose_eq_ok_iff.1 composed
  have front : (lines.filterMap rewind?).reverse.filter classifies = [] := by
    rw [List.filter_eq_nil_iff]
    intro action member
    obtain ⟨count, rfl⟩ := exists_rewind_of_mem (List.mem_reverse.1 member)
    exact Bool.false_ne_true
  have behind : (lines.filterMap forward?).filter classifies = [] := by
    rw [List.filter_eq_nil_iff]
    intro action member
    obtain ⟨state, rfl⟩ | rfl := enter_or_newLine_of_mem member
    · exact Bool.false_ne_true
    · exact Bool.false_ne_true
  rw [List.filter_append, front, List.nil_append,
    List.filter_cons_of_pos (classifies_classify name), behind]

/-- The token of composed actions is the action name. -/
theorem eq_name_of_token_mem (composed : compose name lines = .ok actions) {token : Text}
    (member : .token token ∈ actions) : token = name ∧ name ≠ noToken := by
  have classified : .token token ∈ actions.filter classifies := List.mem_filter.2 ⟨member, rfl⟩
  rw [filter_classifies_of_compose composed, List.mem_singleton, classify] at classified
  split at classified
  · exact nomatch classified
  · next named => exact ⟨Action.token.inj classified, named⟩

/-- **The token class** of composed actions is the action name, if that asks for a token. -/
theorem tokenClass?_of_compose (composed : compose name lines = .ok actions) :
    tokenClass? actions = if name = noToken then none else some name := by
  obtain ⟨-, rfl⟩ := compose_eq_ok_iff.1 composed
  have front : (lines.filterMap rewind?).reverse.findSome? token? = none := by
    rw [List.findSome?_eq_none_iff]
    intro action member
    obtain ⟨count, rfl⟩ := exists_rewind_of_mem (List.mem_reverse.1 member)
    rfl
  have behind : (lines.filterMap forward?).findSome? token? = none := by
    rw [List.findSome?_eq_none_iff]
    intro action member
    obtain ⟨state, rfl⟩ | rfl := enter_or_newLine_of_mem member
    · rfl
    · rfl
  rw [tokenClass?, List.findSome?_append, front, Option.none_or, List.findSome?_cons, behind, classify]
  by_cases named : name = noToken
  · rw [if_pos named, if_pos named]
    rfl
  · rw [if_neg named, if_neg named]
    rfl

/-- **The targets** of composed actions are those of the lines, in their order. -/
theorem targets_of_compose (composed : compose name lines = .ok actions) :
    targets actions = Specification.targetsOf lines := by
  obtain ⟨-, rfl⟩ := compose_eq_ok_iff.1 composed
  have front : (lines.filterMap rewind?).reverse.filterMap target? = [] := by
    rw [List.filterMap_eq_nil_iff]
    intro action member
    obtain ⟨count, rfl⟩ := exists_rewind_of_mem (List.mem_reverse.1 member)
    rfl
  have classified : (classify name).target? = none := by
    rw [classify]
    split
    · rfl
    · rfl
  rw [targets, List.filterMap_append, front, List.nil_append, List.filterMap_cons_none classified,
    List.filterMap_filterMap, Specification.targetsOf]
  -- line by line: a line that changes to no state has no target in either way
  congr 1
  funext line
  unfold forward?
  cases Directive.read line with
  | error fault => rfl
  | ok placed =>
      cases placed with
      | none => rfl
      | some action =>
          cases action with
          | skip => rfl
          | token class_ => rfl
          | enter state => rfl
          | rewind count => rfl
          | newLine => rfl

/-- **The shape of composed actions.**  Composing fails exactly for a malformed line, with the fault of the first
one, which carries that line as it was given.  Else the moves back come first, in the reverse order of their
lines, then one classification, which is to skip exactly if the name is a dash, and then the changes of state
and new lines, in the order of their lines.  So there is exactly one classification, the token class of a rule
is its action name or nothing, and its targets are those of the lines in order.  A line that is no directive has
no effect wherever it stands.  And reordered lines give the same actions, if the moves back are in the same
order and the other directives are; if the malformed lines are in the same order too, they fail alike. -/
theorem compose_shape (name : Text) (lines : List Text) :
    (∀ fault, compose name lines = .error fault ↔
      ∃ before after, lines = before ++ fault.line :: after ∧
        (∀ earlier ∈ before, ∃ placed, Directive.read earlier = .ok placed) ∧
        Directive.read fault.line = .error fault) ∧
    (∀ actions, compose name lines = .ok actions ↔
      (∀ line ∈ lines, ∃ placed, Directive.read line = .ok placed) ∧
      actions = (lines.filterMap rewind?).reverse ++
        (if name = ['-'] then .skip else .token name) :: lines.filterMap forward?) ∧
    (∀ rule : Rule, compose name lines = .ok rule.actions →
      rule.actions.filter classifies = [if name = ['-'] then .skip else .token name] ∧
      rule.tokenClass? = (if name = ['-'] then none else some name) ∧
      rule.targets = Specification.targetsOf lines) ∧
    (∀ before line after, lines = before ++ line :: after → Directive.read line = .ok none →
      compose name lines = compose name (before ++ after)) ∧
    ∀ others, lines.Perm others → lines.filterMap rewind? = others.filterMap rewind? →
      lines.filterMap forward? = others.filterMap forward? →
      (∀ actions, compose name lines = .ok actions ↔ compose name others = .ok actions) ∧
      (lines.filterMap fault? = others.filterMap fault? → compose name lines = compose name others) := by
  refine ⟨fun fault => compose_eq_error_iff, fun actions => compose_eq_ok_iff, ?_, ?_, ?_⟩
  · intro rule composed
    exact ⟨filter_classifies_of_compose composed, tokenClass?_of_compose composed,
      targets_of_compose composed⟩
  · rintro before line after rfl plain
    have silent : rewind? line = none ∧ forward? line = none ∧ fault? line = none := by
      simp [rewind?, forward?, fault?, plain]
    simp only [compose_eq, List.findSome?_append, List.filterMap_append, List.findSome?_cons, silent,
      List.filterMap_cons]
  · intro others reordered rewinds changes
    refine ⟨fun actions => ?_, fun faults => ?_⟩
    · rw [compose_eq_ok_iff, compose_eq_ok_iff, rewinds, changes]
      simp only [reordered.mem_iff]
    · rw [compose_eq, compose_eq, ← List.head?_filterMap, ← List.head?_filterMap, rewinds, changes, faults]

/-- Moves back and other directives in turn, with a line between them that is no directive. -/
example : compose ['A'] ["VRATI_SE 1".toList, "UDJI_U_STANJE S".toList, "VRATI".toList,
    " VRATI_SE(3)".toList, "NOVI_REDAK".toList] =
    .ok [.rewind 3, .rewind 1, .token ['A'], .enter ['S'], .newLine] := by
  decide +kernel

end Action

end Lexer
