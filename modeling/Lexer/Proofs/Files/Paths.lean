import Lexer.Files.Path

/-! # The temporary sibling of a path

Where a path leads to is decided by its steps.  **The temporary sibling** ends in a step of its own, the name
of the path with an ending, so it never ends in a dot, in two dots or in a slash, and it does not end in the
last step of the path itself.  How many silent pieces stand behind that step makes no difference. -/

namespace Lexer.Files.Path

/-! ## (1) Pieces -/

/-- There is always a piece. -/
theorem split_ne_nil (text : Text) : split text ≠ [] := by
  cases text with
  | nil => exact List.cons_ne_nil _ _
  | cons c rest =>
      rw [split]
      split
      · exact List.cons_ne_nil _ _
      · split
        · exact List.cons_ne_nil _ _
        · exact List.cons_ne_nil _ _

/-- **A slash** sets the pieces of two texts apart. -/
theorem split_append (left right : Text) :
    split (left ++ '/' :: right) = split left ++ split right := by
  induction left with
  | nil => rfl
  | cons c left ih =>
      obtain ⟨piece, pieces, same⟩ := List.exists_cons_of_ne_nil (split_ne_nil left)
      rw [List.cons_append, split, split, ih]
      split
      · rw [List.cons_append]
      · rw [same, List.cons_append, List.cons_append]

/-- A text without a slash is one piece. -/
theorem split_of_slash_not_mem {name : Text} (free : '/' ∉ name) : split name = [name] := by
  induction name with
  | nil => rfl
  | cons c name ih =>
      rw [List.mem_cons, not_or] at free
      rw [split, if_neg (Ne.symm free.1), ih free.2]

/-- No piece holds a slash. -/
theorem slash_not_mem_of_mem_split {text piece : Text} (member : piece ∈ split text) :
    '/' ∉ piece := by
  induction text generalizing piece with
  | nil =>
      obtain rfl := List.mem_singleton.1 member
      exact List.not_mem_nil
  | cons c text ih =>
      obtain ⟨first, later, same⟩ := List.exists_cons_of_ne_nil (split_ne_nil text)
      rw [same, List.forall_mem_cons] at ih
      rw [split] at member
      split at member
      · rcases List.mem_cons.1 member with rfl | inside
        · exact List.not_mem_nil
        · rw [same] at inside
          rcases List.mem_cons.1 inside with rfl | behind
          · exact ih.1
          · exact ih.2 piece behind
      · next noSlash =>
          rw [same] at member
          rcases List.mem_cons.1 member with rfl | inside
          · rw [List.mem_cons, not_or]
            exact ⟨Ne.symm noSlash, ih.1⟩
          · exact ih.2 piece inside

/-- A text of silent pieces holds nothing but slashes. -/
theorem eq_slash_of_mem {text : Text} (empty : ∀ piece ∈ split text, piece = []) {c : Char}
    (member : c ∈ text) : c = '/' := by
  induction text with
  | nil => exact absurd member List.not_mem_nil
  | cons first text ih =>
      rw [split] at empty
      split at empty
      · next slash =>
          rw [List.forall_mem_cons] at empty
          rcases List.mem_cons.1 member with rfl | inside
          · exact slash
          · exact ih empty.2 inside
      · split at empty
        · exact absurd (empty _ List.mem_cons_self) (List.cons_ne_nil _ _)
        · exact absurd (empty _ List.mem_cons_self) (List.cons_ne_nil _ _)

/-! ## (2) Steps -/

/-- The steps of two texts with a slash between them. -/
theorem steps_append (left right : Text) :
    steps ⟨left ++ '/' :: right⟩ = steps ⟨left⟩ ++ steps ⟨right⟩ := by
  rw [steps, split_append, List.filter_append, steps, steps]

/-- A name is one step. -/
theorem steps_name {name : Text} (named : name ≠ []) (free : '/' ∉ name) : steps ⟨name⟩ = [name] := by
  rw [steps, split_of_slash_not_mem free]
  refine List.filter_cons_of_pos ?_
  rw [List.isEmpty_eq_false_iff.2 named, Bool.not_false]

/-- **A name behind a directory** is one more step. -/
theorem steps_extend {name : Text} (named : name ≠ []) (free : '/' ∉ name) (directory : Text) :
    (extend directory name).steps = steps ⟨directory⟩ ++ [name] := by
  rw [extend]
  split
  · next empty =>
      obtain rfl := List.isEmpty_iff.1 empty
      exact steps_name named free
  · split
    · next slash =>
        obtain ⟨before, rfl⟩ := List.getLast?_eq_some_iff.1 slash
        rw [List.append_assoc, List.singleton_append, steps_append, steps_name named free,
          steps_append]
        exact congrArg (· ++ [name]) (List.append_nil _).symm
    · rw [steps_append, steps_name named free]

/-- A name behind a directory ends as the name does. -/
theorem endsInSlash_extend {name : Text} (named : name ≠ []) (free : '/' ∉ name)
    (directory : Text) : (extend directory name).endsInSlash = false := by
  have last : ∀ before : Text, (before ++ name).getLast? ≠ some '/' := by
    intro before slash
    rw [List.getLast?_append, List.getLast?_eq_some_getLast named, Option.some_or] at slash
    exact free (Option.some.inj slash ▸ List.getLast_mem named)
  rw [extend]
  split
  · exact decide_eq_false (last [])
  · split
    · exact decide_eq_false (last directory)
    · refine decide_eq_false fun slash => last (directory ++ ['/']) ?_
      rwa [List.append_assoc, List.singleton_append]

/-- A name behind a directory starts where the directory does. -/
theorem isAbsolute_extend {directory : Text} (full : directory ≠ []) (name : Text) :
    (extend directory name).isAbsolute = isAbsolute ⟨directory⟩ := by
  obtain ⟨first, rest, rfl⟩ := List.exists_cons_of_ne_nil full
  rw [extend]
  split
  · next empty => exact absurd empty Bool.false_ne_true
  · split
    · rfl
    · rfl

/-- A step is not empty and holds no slash. -/
theorem of_mem_steps {path : Path} {step : Text} (member : step ∈ path.steps) :
    step ≠ [] ∧ '/' ∉ step := by
  rw [steps, List.mem_filter, Bool.not_eq_true', List.isEmpty_eq_false_iff] at member
  exact ⟨member.2, slash_not_mem_of_mem_split member.1⟩

/-- A path without a step is empty or ends in a slash. -/
theorem endsInSlash_of_steps {path : Path} (still : path.steps = []) (full : path.text ≠ []) :
    path.endsInSlash = true := by
  have empty : ∀ piece ∈ split path.text, piece = [] := by
    intro piece member
    have silent := List.filter_eq_nil_iff.1 still piece member
    rwa [Bool.not_eq_true', Bool.not_eq_false, List.isEmpty_iff] at silent
  rw [endsInSlash, decide_eq_true_iff, List.getLast?_eq_some_getLast full,
    eq_slash_of_mem empty (List.getLast_mem full)]

/-! ## (3) Names -/

/-- Settling drops a silent piece in front of others. -/
theorem settle_of_silent {piece : Text} {outer : List Text} (more : outer ≠ [])
    (silent : isSilent piece = true) : settle (piece :: outer) = settle outer := by
  rw [settle.eq_3 _ _ more, if_pos silent]

/-- Settling stops at a piece that is not silent. -/
theorem settle_of_loud {piece : Text} {outer : List Text} (loud : ¬ isSilent piece = true) :
    settle (piece :: outer) = piece :: outer := by
  cases outer with
  | nil => rfl
  | cons next outer => rw [settle.eq_3 _ _ (List.cons_ne_nil _ _), if_neg loud]

/-- Settling drops pieces, it adds none. -/
theorem mem_of_mem_settle {pieces : List Text} {piece : Text} (member : piece ∈ settle pieces) :
    piece ∈ pieces := by
  induction pieces using settle.induct with
  | case1 => exact member
  | case2 => exact member
  | case3 first outer more silent ih =>
      rw [settle_of_silent more silent] at member
      exact List.mem_cons_of_mem _ (ih member)
  | case4 first outer more loud =>
      rwa [settle_of_loud loud] at member

/-- Settling comes to the first piece that is not empty, unless that is a dot. -/
theorem settle_of_filter {pieces earlier : List Text} {name : Text} (notHere : name ≠ here)
    (ends : (pieces.filter fun piece => !piece.isEmpty) = name :: earlier) :
    ∃ outer, settle pieces = name :: outer ∧
      (outer.filter fun piece => !piece.isEmpty) = earlier := by
  induction pieces with
  | nil => exact absurd ends (List.cons_ne_nil _ _).symm
  | cons piece pieces ih =>
      by_cases empty : piece.isEmpty = true
      · -- an empty piece in front is dropped, because there is another one behind it
        rw [List.filter_cons_of_neg (by rw [empty]; exact Bool.false_ne_true)] at ends
        have more : pieces = [] → False := by
          rintro rfl
          exact absurd ends (List.cons_ne_nil _ _).symm
        rw [settle_of_silent more (by rw [isSilent, empty, Bool.true_or])]
        exact ih ends
      · rw [List.filter_cons_of_pos (by rw [Bool.eq_false_iff.2 empty, Bool.not_false])] at ends
        obtain ⟨rfl, behind⟩ := List.cons.inj ends
        have loud : ¬ isSilent piece = true := by
          rw [isSilent, Bool.eq_false_iff.2 empty, decide_eq_false notHere]
          exact Bool.false_ne_true
        exact ⟨pieces, settle_of_loud loud, behind⟩

/-- The pieces of a path settle to its last step, unless that is a dot. -/
theorem settle_inward {path : Path} {earlier : List Text} {name : Text} (notHere : name ≠ here)
    (ends : path.steps = earlier ++ [name]) :
    ∃ outer, settle path.inward = name :: outer ∧
      (outer.filter fun piece => !piece.isEmpty) = earlier.reverse := by
  refine settle_of_filter notHere ?_
  rw [inward, List.filter_reverse, ← steps, ends, List.reverse_append, List.reverse_singleton,
    List.singleton_append]

/-- **The name of a path** is its last step, unless that is a dot or two dots. -/
theorem name?_of_steps {path : Path} {earlier : List Text} {name : Text} (notHere : name ≠ here)
    (ends : path.steps = earlier ++ [name]) :
    path.name? = if name = above then none else some name := by
  obtain ⟨outer, settled, -⟩ := settle_inward notHere ends
  have named : name.isEmpty = false :=
    List.isEmpty_eq_false_iff.2
      (of_mem_steps (ends ▸ List.mem_append_right earlier List.mem_cons_self)).1
  rw [name?, settled]
  simp only [named, decide_eq_false notHere, Bool.false_or, decide_eq_true_iff]

/-- A name holds no slash. -/
theorem slash_not_mem_of_name? {path : Path} {name : Text} (named : path.name? = some name) :
    '/' ∉ name := by
  rw [name?] at named
  split at named
  · next piece outer settled =>
      split at named
      · exact nomatch named
      · obtain rfl := Option.some.inj named
        have member : piece ∈ path.inward := mem_of_mem_settle (settled ▸ List.mem_cons_self)
        exact slash_not_mem_of_mem_split (List.mem_reverse.1 member)
  · exact nomatch named

/-! ## (4) The temporary sibling -/

/-- The ending holds no slash. -/
theorem slash_not_mem_temporaryEnding : '/' ∉ temporaryEnding := by decide

/-- The name of a temporary file is not empty and holds no slash. -/
theorem temporaryName_proper {name : Text} (free : '/' ∉ name) :
    name ++ temporaryEnding ≠ [] ∧ '/' ∉ name ++ temporaryEnding := by
  refine ⟨fun same => ?_, ?_⟩
  · exact absurd (List.append_eq_nil_iff.1 same).2 (by decide)
  · rw [List.mem_append, not_or]
    exact ⟨free, slash_not_mem_temporaryEnding⟩

/-- **The last step** of the temporary sibling of a path with a name. -/
theorem steps_temporary_of_name {path : Path} {name : Text} (named : path.name? = some name) :
    path.temporary.steps = steps ⟨path.parentText⟩ ++ [name ++ temporaryEnding] := by
  have ⟨full, free⟩ := temporaryName_proper (slash_not_mem_of_name? named)
  rw [temporary, named, steps_extend full free]

/-- The temporary sibling of a path without a name has one step more than the path. -/
theorem steps_temporary_of_none {path : Path} (unnamed : path.name? = none) :
    path.temporary.steps = path.steps ++ [temporaryEnding] := by
  rw [temporary, unnamed, steps_extend (by decide) slash_not_mem_temporaryEnding]

/-- The temporary sibling of a path without a name starts where the path does. -/
theorem isAbsolute_temporary_of_none {path : Path} (unnamed : path.name? = none)
    (moves : path.steps ≠ []) : path.temporary.isAbsolute = path.isAbsolute := by
  have full : path.text ≠ [] := by
    intro empty
    rw [steps, empty] at moves
    exact moves rfl
  rw [temporary, unnamed, isAbsolute_extend full]

/-- The temporary sibling does not end in a slash. -/
theorem endsInSlash_temporary (path : Path) : path.temporary.endsInSlash = false := by
  rw [temporary]
  split
  · next name named =>
      have ⟨full, free⟩ := temporaryName_proper (slash_not_mem_of_name? named)
      exact endsInSlash_extend full free _
  · exact endsInSlash_extend (by decide) slash_not_mem_temporaryEnding _

/-- **The temporary sibling ends in a name**, neither a dot nor two dots, that the ending is part of. -/
theorem exists_steps_temporary (path : Path) :
    ∃ earlier name, path.temporary.steps = earlier ++ [name] ∧ name ≠ here ∧ name ≠ above := by
  have long : ∀ name : Text, name ++ temporaryEnding ≠ here ∧ name ++ temporaryEnding ≠ above := by
    intro name
    have length : 4 ≤ (name ++ temporaryEnding).length :=
      List.length_append ▸ Nat.le_add_left 4 name.length
    constructor
    · intro same
      exact absurd (same ▸ length) (by decide)
    · intro same
      exact absurd (same ▸ length) (by decide)
  cases named : path.name? with
  | some name => exact ⟨_, _, steps_temporary_of_name named, long name⟩
  | none => exact ⟨_, _, steps_temporary_of_none named, long []⟩

end Lexer.Files.Path
