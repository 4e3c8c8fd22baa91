import Lexer.Proofs.Files.Places

/-! # The enclosing directory

The pieces of a path make up its text, and the paths that enclose it are starts of that text.  **The innermost
enclosing path** takes the same steps as the path, without its name and without the dots in front of it, so it
leads to the directory in which the path has its name. -/

namespace Lexer.Files

namespace Path

/-! ## (1) Joined pieces -/

/-- One piece is joined to itself. -/
theorem join_singleton {piece : Text} (full : piece ≠ []) : join [piece] = piece :=
  join.eq_3 piece full

/-- A piece in the root has a slash in front. -/
theorem join_root (piece : Text) : join [piece, []] = '/' :: piece :=
  join.eq_4 piece

/-- A piece is joined to others by a slash. -/
theorem join_cons {outer : List Text} (some : outer ≠ []) (full : outer ≠ [[]]) (piece : Text) :
    join (piece :: outer) = join outer ++ '/' :: piece :=
  join.eq_5 piece outer (fun _ none => some none) some full

/-- Pieces in front are a start of all pieces. -/
theorem join_isPrefix_cons {outer : List Text} (some : outer ≠ []) (piece : Text) :
    join outer <+: join (piece :: outer) := by
  by_cases root : outer = [[]]
  · subst root
    exact ⟨piece, (join_root piece).symm⟩
  · exact ⟨'/' :: piece, (join_cons some root piece).symm⟩

/-- Joined pieces are not empty. -/
theorem join_ne_nil {pieces : List Text} (some : pieces ≠ []) : join pieces ≠ [] := by
  induction pieces using join.induct with
  | case1 => exact absurd rfl some
  | case2 => exact List.cons_ne_nil _ _
  | case3 piece full => rwa [join_singleton full]
  | case4 piece =>
      rw [join_root]
      exact List.cons_ne_nil _ _
  | case5 piece outer _ more full _ =>
      rw [join_cons more full]
      exact List.append_ne_nil_of_right_ne_nil _ (List.cons_ne_nil _ _)

/-- Settled pieces are a start of all pieces. -/
theorem join_settle_isPrefix {pieces : List Text} : join (settle pieces) <+: join pieces := by
  induction pieces using settle.induct with
  | case1 => exact List.prefix_refl _
  | case2 => exact List.prefix_refl _
  | case3 piece outer more silent ih =>
      rw [settle_of_silent more silent]
      exact ih.trans (join_isPrefix_cons more piece)
  | case4 piece outer more loud =>
      exact ⟨[], by rw [settle_of_loud loud, List.append_nil]⟩

/-- **Pieces without slashes** are found again in the joined text. -/
theorem split_join {pieces : List Text} (some : pieces ≠ []) (full : pieces ≠ [[]])
    (free : ∀ piece ∈ pieces, '/' ∉ piece) : split (join pieces) = pieces.reverse := by
  induction pieces using join.induct with
  | case1 => exact absurd rfl some
  | case2 => exact absurd rfl full
  | case3 piece named =>
      rw [join_singleton named, split_of_slash_not_mem (free piece List.mem_cons_self)]
      rfl
  | case4 piece =>
      rw [join_root, ← List.nil_append ('/' :: piece), split_append,
        split_of_slash_not_mem (free piece List.mem_cons_self)]
      rfl
  | case5 piece outer _ more many ih =>
      rw [List.forall_mem_cons] at free
      rw [join_cons more many, split_append, ih more many free.2, split_of_slash_not_mem free.1,
        List.reverse_cons]

/-- The steps of joined pieces are those that are not empty. -/
theorem steps_join {pieces : List Text} (some : pieces ≠ []) (free : ∀ piece ∈ pieces, '/' ∉ piece) :
    steps ⟨join pieces⟩ = pieces.reverse.filter fun piece => !piece.isEmpty := by
  by_cases root : pieces = [[]]
  · subst root
    rfl
  · rw [steps, split_join some root free]

/-- Only the empty text has one piece that is empty. -/
theorem eq_nil_of_split {text : Text} (one : split text = [[]]) : text = [] := by
  cases text with
  | nil => rfl
  | cons c text =>
      obtain ⟨piece, pieces, same⟩ := List.exists_cons_of_ne_nil (split_ne_nil text)
      rw [split, same] at one
      split at one
      · cases one
      · cases one

/-- A text with a slash has a last one. -/
theorem exists_last_slash {text : Text} (slash : '/' ∈ text) :
    ∃ left right : Text, text = left ++ '/' :: right ∧ '/' ∉ right := by
  induction text with
  | nil => exact absurd slash List.not_mem_nil
  | cons c text ih =>
      by_cases later : '/' ∈ text
      · obtain ⟨left, right, rfl, free⟩ := ih later
        exact ⟨c :: left, right, rfl, free⟩
      · rcases List.mem_cons.1 slash with rfl | inside
        · exact ⟨[], text, rfl, later⟩
        · exact absurd inside later

/-- **The pieces of a text** make it up. -/
theorem join_split {text : Text} (full : text ≠ []) : join (split text).reverse = text := by
  by_cases slash : '/' ∈ text
  · obtain ⟨left, right, rfl, free⟩ := exists_last_slash slash
    rw [split_append, split_of_slash_not_mem free, List.reverse_append, List.reverse_singleton,
      List.singleton_append]
    by_cases root : left = []
    · subst root
      exact join_root right
    · have many : (split left).reverse ≠ [[]] := by
        intro one
        exact root (eq_nil_of_split (List.reverse_eq_iff.1 one))
      have some : (split left).reverse ≠ [] := fun none =>
        split_ne_nil left (List.reverse_eq_nil_iff.1 none)
      rw [join_cons some many, join_split root]
  · rw [split_of_slash_not_mem slash]
    exact join_singleton full
termination_by text.length

/-! ## (2) The innermost enclosing path -/

/-- The longest path up to a piece has the settled pieces. -/
theorem exists_upTo {pieces : List Text} (some : pieces ≠ []) :
    ∃ rest, upTo pieces = ⟨join (settle pieces)⟩ :: rest := by
  induction pieces using upTo.induct with
  | case1 => exact absurd rfl some
  | case2 piece => exact ⟨[], rfl⟩
  | case3 piece outer more silent ih =>
      rw [upTo.eq_3 _ _ more, settle_of_silent more silent, if_pos silent]
      exact ih more
  | case4 piece outer more loud _ =>
      rw [upTo.eq_3 _ _ more, settle_of_loud loud, if_neg loud]
      exact ⟨_, rfl⟩

/-- Settled pieces have the same paths up to each. -/
theorem upTo_settle (pieces : List Text) : upTo (settle pieces) = upTo pieces := by
  induction pieces using upTo.induct with
  | case1 => rfl
  | case2 piece => rfl
  | case3 piece outer more silent ih =>
      rw [settle_of_silent more silent, ih, upTo.eq_3 _ _ more, if_pos silent]
  | case4 piece outer more loud _ => rw [settle_of_loud loud]

/-- Settling drops silent pieces. -/
theorem exists_silent_append (pieces : List Text) :
    ∃ silent, pieces = silent ++ settle pieces ∧ ∀ piece ∈ silent, isSilent piece = true := by
  induction pieces using settle.induct with
  | case1 => exact ⟨[], rfl, List.forall_mem_nil _⟩
  | case2 piece => exact ⟨[], rfl, List.forall_mem_nil _⟩
  | case3 piece outer more isSilent ih =>
      obtain ⟨silent, same, each⟩ := ih
      refine ⟨piece :: silent, ?_, List.forall_mem_cons.2 ⟨isSilent, each⟩⟩
      rw [settle_of_silent more isSilent, List.cons_append, ← same]
  | case4 piece outer more loud =>
      refine ⟨[], ?_, List.forall_mem_nil _⟩
      rw [settle_of_loud loud, List.nil_append]

/-- Settling leaves a piece. -/
theorem settle_ne_nil {pieces : List Text} (some : pieces ≠ []) : settle pieces ≠ [] := by
  induction pieces using settle.induct with
  | case1 => exact some
  | case2 piece => exact some
  | case3 piece outer more silent ih =>
      rw [settle_of_silent more silent]
      exact ih more
  | case4 piece outer more loud => rwa [settle_of_loud loud]

/-- A silent piece that is a step is a dot. -/
theorem eq_here_of_isSilent {piece : Text} (silent : isSilent piece = true)
    (full : (!piece.isEmpty) = true) : piece = here := by
  rw [isSilent, Bool.or_eq_true, decide_eq_true_iff] at silent
  rcases silent with empty | isHere
  · rw [empty] at full
    cases full
  · exact isHere

/-- **The innermost enclosing path** is made up of the pieces in front of the name. -/
theorem exists_outer_of_enclosing {path parent : Path} {rest : List Path} {earlier : List Text}
    {name : Text} (encloses : path.enclosing = parent :: rest) (notHere : name ≠ here)
    (ends : path.steps = earlier ++ [name]) :
    ∃ outer, outer ≠ [] ∧ settle path.inward = name :: outer ∧ parent = ⟨join (settle outer)⟩ ∧
      (outer.filter fun piece => !piece.isEmpty) = earlier.reverse := by
  obtain ⟨outer, settled, behind⟩ := settle_inward notHere ends
  have named : name ≠ [] :=
    (of_mem_steps (ends ▸ List.mem_append_right earlier List.mem_cons_self)).1
  have loud : ¬ isSilent name = true := by
    rw [isSilent, List.isEmpty_eq_false_iff.2 named, decide_eq_false notHere, Bool.or_false]
    exact Bool.false_ne_true
  rw [enclosing, ← upTo_settle, settled] at encloses
  have more : outer ≠ [] := by
    rintro rfl
    cases encloses
  obtain ⟨others, same⟩ := exists_upTo more
  rw [upTo.eq_3 _ _ more, if_neg loud, List.tail_cons, same] at encloses
  exact ⟨outer, more, settled, (List.head_eq_of_cons_eq encloses).symm, behind⟩

/-- **The text of the innermost enclosing path** is a start of that of the path. -/
theorem isPrefix_of_enclosing {path parent : Path} {rest : List Path} {earlier : List Text}
    {name : Text} (encloses : path.enclosing = parent :: rest) (notHere : name ≠ here)
    (ends : path.steps = earlier ++ [name]) : parent.text ≠ [] ∧ parent.text <+: path.text := by
  obtain ⟨outer, more, settled, rfl, -⟩ := exists_outer_of_enclosing encloses notHere ends
  have full : path.text ≠ [] := by
    intro empty
    rw [steps, empty] at ends
    exact List.append_ne_nil_of_right_ne_nil _ (List.cons_ne_nil _ _) ends.symm
  have whole : join (settle path.inward) <+: path.text := by
    have start := @join_settle_isPrefix path.inward
    rwa [inward, join_split full] at start
  rw [settled] at whole
  exact ⟨join_ne_nil (settle_ne_nil more),
    (join_settle_isPrefix.trans (join_isPrefix_cons more name)).trans whole⟩

/-- **The steps of the innermost enclosing path** are those up to the name and to the dots in front of it. -/
theorem steps_of_enclosing {path parent : Path} {rest : List Path} {earlier : List Text}
    {name : Text} (encloses : path.enclosing = parent :: rest) (notHere : name ≠ here)
    (ends : path.steps = earlier ++ [name]) :
    ∃ dots, earlier = parent.steps ++ dots ∧ ∀ dot ∈ dots, dot = here := by
  obtain ⟨outer, more, settled, rfl, behind⟩ := exists_outer_of_enclosing encloses notHere ends
  have free : ∀ piece ∈ settle outer, '/' ∉ piece := by
    intro piece member
    have inside : piece ∈ path.inward :=
      mem_of_mem_settle (settled ▸ List.mem_cons_of_mem _ (mem_of_mem_settle member))
    exact slash_not_mem_of_mem_split (List.mem_reverse.1 inside)
  obtain ⟨silent, same, each⟩ := exists_silent_append outer
  refine ⟨silent.reverse.filter fun piece => !piece.isEmpty, ?_, fun dot member => ?_⟩
  · rw [steps_join (settle_ne_nil more) free, ← List.filter_append, ← List.reverse_append, ← same,
      List.filter_reverse, behind, List.reverse_reverse]
  · rw [List.mem_filter, List.mem_reverse] at member
    exact eq_here_of_isSilent (each dot member.1) member.2

end Path

namespace Tree

variable {tree : Tree} {path parent : Path} {location : Location} {rest : List Path}

/-! ## (3) The directory of a path -/

/-- A path leads to a directory where one is located. -/
theorem isDirectory_eq_true_iff : tree.isDirectory path = true ↔
    ∃ location, tree.locate path = .ok location ∧ tree.find? location = some .directory := by
  rw [isDirectory]
  cases tree.locate path with
  | error fault => simp
  | ok location => simp

/-- **A path without a fault** in itself is not empty, is short enough and does not hold zero. -/
theorem pathFault?_eq_none_iff : pathFault? path = none ↔
    '\x00' ∉ path.text ∧ path.text.byteLength < pathLimit ∧ path.text ≠ [] := by
  rw [pathFault?]
  split
  · next zero => simp [List.contains_iff_mem.1 zero]
  · next noZero =>
      split
      · next long => simp [Nat.not_lt_of_le long]
      · next short =>
          split
          · next empty => simp [List.isEmpty_iff.1 empty]
          · next full =>
              rw [List.contains_iff_mem] at noZero
              rw [List.isEmpty_iff] at full
              exact ⟨fun _ => ⟨noZero, Nat.lt_of_not_le short, full⟩, fun _ => rfl⟩

/-- A start of a path has no fault in itself if the path has none. -/
theorem pathFault?_of_isPrefix (full : parent.text ≠ []) (starts : parent.text <+: path.text)
    (sound : pathFault? path = none) : pathFault? parent = none := by
  obtain ⟨noZero, short, -⟩ := pathFault?_eq_none_iff.1 sound
  exact pathFault?_eq_none_iff.2 ⟨fun zero => noZero (starts.subset zero),
    Nat.lt_of_le_of_lt (Text.byteLength_le_of_isPrefix starts) short, full⟩

/-- A start of a path starts where the path does. -/
theorem origin_of_isPrefix (full : parent.text ≠ []) (starts : parent.text <+: path.text) :
    tree.origin parent = tree.origin path := by
  obtain ⟨behind, same⟩ := starts
  obtain ⟨first, text, cut⟩ := List.exists_cons_of_ne_nil full
  rw [origin, origin, Path.isAbsolute, Path.isAbsolute, ← same, cut, List.cons_append,
    List.head?_cons, List.head?_cons]

/-- **The innermost enclosing path** leads to the directory in which a path has its name. -/
theorem LeadsTo.isDirectory_enclosing (leads : tree.LeadsTo path location)
    (encloses : path.enclosing = parent :: rest) : tree.isDirectory parent = true := by
  obtain ⟨directory, name, placed, -, -⟩ := leads
  obtain ⟨sound, notHere, -, found, earlier, steps, walked⟩ := place_eq_named_iff.1 placed
  obtain ⟨full, starts⟩ := Path.isPrefix_of_enclosing encloses notHere steps
  obtain ⟨dots, rfl, still⟩ := Path.steps_of_enclosing encloses notHere steps
  rw [walk_append] at walked
  obtain ⟨reached, walked, stays⟩ := Except.bind_eq_ok_iff.1 walked
  obtain rfl := eq_of_walk_dots still stays
  refine isDirectory_eq_true_iff.2 ⟨reached, locate_eq_ok_iff.2 ⟨?_, ?_, fun _ => found⟩, found⟩
  · exact pathFault?_of_isPrefix full starts sound
  · rwa [origin_of_isPrefix full starts]

/-- **No directory is made** where there is one. -/
theorem makeDirectory_of_isDirectory (there : tree.isDirectory path = true) :
    tree.makeDirectory path = .error .alreadyThere := by
  obtain ⟨location, located, isDirectory⟩ := isDirectory_eq_true_iff.1 there
  obtain ⟨sound, walked, -⟩ := locate_eq_ok_iff.1 located
  rw [makeDirectory]
  rcases List.eq_nil_or_concat path.steps with still | ⟨earlier, name, steps⟩
  · rw [place, sound, still]
    rfl
  · rw [List.concat_eq_append] at steps
    rw [steps, walk_concat] at walked
    obtain ⟨directory, walked, stepped⟩ := Except.bind_eq_ok_iff.1 walked
    obtain ⟨start, next⟩ := step_eq_ok_iff.1 stepped
    rw [place_of_concat sound steps walked start]
    cases next with
    | here => rfl
    | above => rfl
    | child notHere notAbove short _ =>
        rw [if_neg (not_or.2 ⟨notHere, notAbove⟩)]
        change (tree.child? directory name >>= _) = _
        rw [child?_eq_ok_iff.2 ⟨short, isDirectory⟩]
        rfl

end Tree

end Lexer.Files
