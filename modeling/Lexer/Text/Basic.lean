/-! # Text

Everything the library reads or writes is text: specifications, patterns, artifacts, graphs and
the input of a lexer.  **Text is the list of its characters**, so that every scanner is a recursion
on a list and every law about it an induction.  Lengths that are shown to a user are counted in the
bytes of the UTF-8 encoding. -/

namespace Lexer

/-- **Text** is the list of its characters. -/
abbrev Text := List Char

namespace Text

/-- The number of bytes a text takes in UTF-8. -/
def byteLength : Text → Nat
  | [] => 0
  | c :: rest => c.utf8Size + byteLength rest

/-- The empty text takes no bytes. -/
@[simp] theorem byteLength_nil : byteLength [] = 0 := rfl

/-- A character adds the bytes of its own encoding. -/
@[simp] theorem byteLength_cons (c : Char) (rest : Text) :
    byteLength (c :: rest) = c.utf8Size + byteLength rest := rfl

/-- Byte lengths add up along a concatenation. -/
@[simp] theorem byteLength_append (left right : Text) :
    byteLength (left ++ right) = byteLength left + byteLength right := by
  induction left with
  | nil => simp
  | cons c rest ih => simp [ih, Nat.add_assoc]

/-- A text takes at least as many bytes as any of its starts. -/
theorem byteLength_le_of_isPrefix {start text : Text} (isStart : start <+: text) :
    start.byteLength ≤ text.byteLength := by
  obtain ⟨rest, rfl⟩ := isStart
  rw [byteLength_append]
  exact Nat.le_add_right ..

/-- Text as a string, for messages. -/
def toString (text : Text) : String :=
  String.ofList text

/-- The part of a text after a given start, if it starts so. -/
def dropStart? : (start text : Text) → Option Text
  | [], text => some text
  | _ :: _, [] => none
  | s :: start, c :: text => if s = c then dropStart? start text else none

/-- A start is found exactly where the text is that start and a remainder. -/
theorem dropStart?_eq_some_iff {start text rest : Text} :
    dropStart? start text = some rest ↔ text = start ++ rest := by
  induction start generalizing text with
  | nil => simp [dropStart?]
  | cons s start ih =>
      cases text with
      | nil => simp [dropStart?]
      | cons c text =>
          by_cases same : s = c
          · subst same
            simp [dropStart?, ih]
          · simp [dropStart?, same, Ne.symm same]

/-- Cut a text before the first occurrence of a character, which is dropped. -/
def cut? (mark : Char) : Text → Option (Text × Text)
  | [] => none
  | c :: rest =>
      if c = mark then some ([], rest)
      else (cut? mark rest).map fun (before, after) => (c :: before, after)

/-- A cut is made exactly at the first occurrence of the mark. -/
theorem cut?_eq_some_iff {mark : Char} {text before after : Text} :
    cut? mark text = some (before, after) ↔
      text = before ++ mark :: after ∧ mark ∉ before := by
  induction text generalizing before with
  | nil => simp [cut?]
  | cons c rest ih =>
      by_cases same : c = mark
      · subst same
        cases before with
        | nil => simp [cut?, eq_comm]
        | cons b before => simp +contextual [cut?]
      · cases before with
        | nil => simp [cut?, same]
        | cons b before =>
            simp only [cut?, if_neg same, Option.map_eq_some_iff, Prod.mk.injEq, Prod.exists,
              List.cons_append, List.cons.injEq, List.mem_cons, not_or]
            constructor
            · rintro ⟨x, y, found, ⟨rfl, rfl⟩, rfl⟩
              exact ⟨⟨rfl, (ih.1 found).1⟩, Ne.symm same,
                (ih.1 found).2⟩
            · rintro ⟨⟨rfl, found⟩, _, absent⟩
              exact ⟨before, after, ih.2 ⟨found, absent⟩, ⟨rfl, rfl⟩, rfl⟩

/-- The first occurrence of a mark is at one place. -/
theorem append_mark_inj {mark : Char} {left right first second : Text} (leftFree : mark ∉ left)
    (rightFree : mark ∉ right) (same : left ++ mark :: first = right ++ mark :: second) :
    left = right ∧ first = second := by
  have cut := cut?_eq_some_iff.2 ⟨same, rightFree⟩
  rw [cut?_eq_some_iff.2 ⟨rfl, leftFree⟩, Option.some.injEq, Prod.mk.injEq] at cut
  exact cut

end Text

end Lexer
