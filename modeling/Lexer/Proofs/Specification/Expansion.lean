import Lexer.Proofs.Specification.References

/-! # What expansion needs and gives

A text expands exactly if its references are closed and name definitions.  **A bare text** refers to nothing:
it expands to itself whatever the definitions are.  If all definitions are bare, so is everything that they
expand, also where a definition ends in a backslash, which takes along the parenthesis that closes the group.
Definitions that are added behind the others change nothing, unless a name was missing. -/

namespace Lexer.Definitions

variable {definitions : Definitions} {header text : Text}

/-! ## (1) Equations -/

/-- A character that is no backslash and no brace is kept. -/
theorem expand_cons {c : Char} (noBackslash : c ≠ '\\') (noBrace : c ≠ '{') (rest : Text) :
    definitions.expand (c :: rest) = (definitions.expand rest).map fun text => c :: text := by
  rw [expand]
  · rintro rfl
    exact absurd rfl noBackslash
  · rintro d after rfl
    exact absurd rfl noBackslash
  · exact noBrace

/-- A character of a name is read. -/
theorem reference_cons {c : Char} (noClose : c ≠ '}') (before rest : Text) :
    definitions.reference before (c :: rest) = definitions.reference (c :: before) rest := by
  rw [reference]
  exact noClose

/-- The name of a reference is read up to the first closing brace. -/
theorem reference_append {name : Text} (closed : '}' ∉ name) (before rest : Text) :
    definitions.reference before (name ++ '}' :: rest) =
      definitions.reference (name.reverse ++ before) ('}' :: rest) := by
  induction name generalizing before with
  | nil => rfl
  | cons c name ih =>
      rw [List.mem_cons, not_or] at closed
      rw [List.cons_append, reference_cons (Ne.symm closed.1), ih closed.2, List.reverse_cons,
        List.append_assoc, List.singleton_append]

/-- **A reference** to a definition becomes a group around it. -/
theorem expand_reference {name pattern : Text} (closed : '}' ∉ name)
    (found : definitions.find? name = some pattern) (rest : Text) :
    definitions.expand ('{' :: (name ++ '}' :: rest)) =
      (definitions.expand rest).map fun text => '(' :: (pattern ++ ')' :: text) := by
  rw [expand, reference_append closed, List.append_nil, reference, List.reverse_reverse, found]
  rfl

/-- A name that is defined is found. -/
theorem exists_find?_of_mem {name : Text} (member : name ∈ definitions.map Prod.fst) :
    ∃ pattern, definitions.find? name = some pattern := by
  obtain ⟨entry, isEntry, rfl⟩ := List.mem_map.1 member
  cases found : definitions.find? entry.1 with
  | some pattern => exact ⟨pattern, rfl⟩
  | none =>
      have absent := List.lookup_eq_none_iff.1 found entry isEntry
      simp at absent

/-- What is found is defined. -/
theorem mem_of_find? {name pattern : Text} (found : definitions.find? name = some pattern) :
    (name, pattern) ∈ definitions := by
  obtain ⟨before, after, rfl, -⟩ := List.lookup_eq_some_iff.1 found
  exact List.mem_append_right before List.mem_cons_self

/-! ## (2) Texts that expand -/

/-- **A text that refers to known names**: every reference is closed and has one of them. -/
inductive RefersTo (known : List Text) : Text → Prop where
  /-- Nothing is left. -/
  | nil : RefersTo known []
  /-- A backslash at the end refers to nothing. -/
  | backslash : RefersTo known ['\\']
  /-- An escaped character refers to nothing. -/
  | escaped {rest : Text} (c : Char) (behind : RefersTo known rest) :
      RefersTo known ('\\' :: c :: rest)
  /-- A reference. -/
  | reference {name rest : Text} (closed : '}' ∉ name) (isKnown : name ∈ known)
      (behind : RefersTo known rest) : RefersTo known ('{' :: (name ++ '}' :: rest))
  /-- Any other character refers to nothing. -/
  | plain {c : Char} {rest : Text} (noBackslash : c ≠ '\\') (noBrace : c ≠ '{')
      (behind : RefersTo known rest) : RefersTo known (c :: rest)

/-- A text that expands refers to defined names. -/
theorem Expands.refersTo (expands : Expands definitions header text) :
    RefersTo (definitions.map Prod.fst) header := by
  induction expands with
  | nil => exact .nil
  | backslash => exact .backslash
  | escaped c _ ih => exact .escaped c ih
  | reference closed found _ ih =>
      exact .reference closed (List.mem_map_of_mem (mem_of_find? found)) ih
  | plain noBackslash noBrace _ ih => exact .plain noBackslash noBrace ih

/-- **A text that refers to defined names** expands. -/
theorem RefersTo.exists_expand (refers : RefersTo (definitions.map Prod.fst) header) :
    ∃ text, definitions.expand header = .ok text := by
  induction refers with
  | nil => exact ⟨_, rfl⟩
  | backslash => exact ⟨_, rfl⟩
  | escaped c _ ih =>
      obtain ⟨text, expanded⟩ := ih
      exact ⟨_, by rw [expand, expanded]; rfl⟩
  | reference closed isKnown _ ih =>
      obtain ⟨text, expanded⟩ := ih
      obtain ⟨pattern, found⟩ := exists_find?_of_mem isKnown
      exact ⟨_, by rw [expand_reference closed found, expanded]; rfl⟩
  | plain noBackslash noBrace _ ih =>
      obtain ⟨text, expanded⟩ := ih
      exact ⟨_, by rw [expand_cons noBackslash noBrace, expanded]; rfl⟩

/-! ## (3) Bare texts -/

/-- **Bare texts** have no opening brace except behind a backslash. -/
def bare : Text → Bool
  | [] => true
  | ['\\'] => true
  | '\\' :: _ :: rest => bare rest
  | '{' :: _ => false
  | _ :: rest => bare rest

/-- A character that is no backslash and no brace leaves a text bare. -/
theorem bare_cons {c : Char} (noBackslash : c ≠ '\\') (noBrace : c ≠ '{') (rest : Text) :
    bare (c :: rest) = bare rest := by
  rw [bare]
  · rintro rfl
    exact absurd rfl noBackslash
  · rintro d after rfl
    exact absurd rfl noBackslash
  · exact noBrace

/-- **Bare texts expand to themselves.** -/
theorem expand_of_bare (isBare : bare text = true) : definitions.expand text = .ok text := by
  induction text using bare.induct with
  | case1 => rfl
  | case2 => rfl
  | case3 c rest ih =>
      rw [bare] at isBare
      rw [expand, ih isBare]
      rfl
  | case4 => cases isBare
  | case5 c rest notLast notEscape noBrace ih =>
      have noBackslash := Symbol.ne_backslash notLast notEscape
      rw [bare_cons noBackslash noBrace] at isBare
      rw [expand_cons noBackslash noBrace, ih isBare]
      rfl

/-- A bare text in a group, with a bare text behind it. -/
theorem bare_append_close {pattern : Text} (patternBare : bare pattern = true)
    (textBare : bare text = true) : bare (pattern ++ ')' :: text) = true := by
  induction pattern using bare.induct with
  | case1 =>
      rw [List.nil_append, bare_cons (by decide) (by decide)]
      exact textBare
  -- the backslash at the end takes the parenthesis along, and the text starts behind both
  | case2 => exact textBare
  | case3 c rest ih => exact ih patternBare
  | case4 => cases patternBare
  | case5 c rest notLast notEscape noBrace ih =>
      have noBackslash := Symbol.ne_backslash notLast notEscape
      rw [bare_cons noBackslash noBrace] at patternBare
      rw [List.cons_append, bare_cons noBackslash noBrace]
      exact ih patternBare

/-- **What bare definitions expand** is bare. -/
theorem Expands.bare (expands : Expands definitions header text)
    (defined : ∀ entry ∈ definitions, bare entry.2 = true) : bare text = true := by
  induction expands with
  | nil => rfl
  | backslash => rfl
  | escaped c _ ih => exact ih
  | reference _ found _ ih =>
      rw [bare_cons (by decide) (by decide)]
      exact bare_append_close (defined _ (mem_of_find? found)) ih
  | plain noBackslash noBrace _ ih =>
      rw [bare_cons noBackslash noBrace]
      exact ih

/-- What is expanded has no character but those of the text, of definitions and parentheses. -/
theorem Expands.mem (expands : Expands definitions header text) {c : Char} (member : c ∈ text) :
    c ∈ header ∨ (∃ entry ∈ definitions, c ∈ entry.2) ∨ c = '(' ∨ c = ')' := by
  induction expands with
  | nil => exact .inl member
  | backslash => exact .inl member
  | escaped d _ ih => grind
  | reference _ found _ ih =>
      have defined := mem_of_find? found
      grind
  | plain _ _ _ ih => grind

/-! ## (4) More definitions -/

/-- The first definitions of a name come first. -/
theorem find?_append (more : Definitions) (name : Text) :
    find? (definitions ++ more) name = (definitions.find? name).or (more.find? name) :=
  List.lookup_append

/-- **Definitions behind the others** do not change how a text expands, unless a name was missing. -/
theorem expand_append (more : Definitions) (text : Text)
    (noneMissing : ∀ name, definitions.expand text ≠ .error (.unknown name)) :
    expand (definitions ++ more) text = definitions.expand text := by
  revert noneMissing
  -- expansion and the reading of a name call each other, so both claims are proved at once
  refine expand.induct definitions
    (fun text => (∀ name, definitions.expand text ≠ .error (.unknown name)) →
      expand (definitions ++ more) text = definitions.expand text)
    (fun before rest => (∀ name, definitions.reference before rest ≠ .error (.unknown name)) →
      reference (definitions ++ more) before rest = definitions.reference before rest)
    ?nil ?backslash ?escaped ?brace ?plain ?unclosed ?found ?unknown ?named text
  case nil => exact fun _ => rfl
  case backslash => exact fun _ => rfl
  case escaped =>
    intro c rest ih noneMissing
    rw [expand, expand, ih]
    intro name missing
    refine noneMissing name ?_
    rw [expand, missing]
    rfl
  case brace =>
    intro rest ih noneMissing
    rw [expand] at noneMissing
    rw [expand, expand, ih noneMissing]
  case plain =>
    intro c rest notLast notEscape noBrace ih noneMissing
    have noBackslash := Symbol.ne_backslash notLast notEscape
    rw [expand_cons noBackslash noBrace, expand_cons noBackslash noBrace, ih]
    intro name missing
    refine noneMissing name ?_
    rw [expand_cons noBackslash noBrace, missing]
    rfl
  case unclosed =>
    intro before _
    rw [reference, reference]
  case found =>
    intro before rest pattern found ih noneMissing
    have still : find? (definitions ++ more) before.reverse = some pattern := by
      rw [find?_append, found, Option.some_or]
    rw [reference, reference, still, found]
    simp only
    rw [ih]
    intro name missing
    refine noneMissing name ?_
    rw [reference, found]
    simp only
    rw [missing]
    rfl
  case unknown =>
    intro before rest unknown noneMissing
    refine absurd ?_ (noneMissing before.reverse)
    rw [reference, unknown]
  case named =>
    intro before c rest noBrace ih noneMissing
    rw [reference_cons noBrace] at noneMissing
    rw [reference_cons noBrace, reference_cons noBrace, ih noneMissing]

end Lexer.Definitions
