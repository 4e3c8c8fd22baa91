import Lexer.Text.Blank
import Mathlib.Data.List.DropRight

/-! # Trimming and words

**A trimmed text** has no blank at either end, and trimming leaves it as it is.  Trimming takes away gaps, which
are nothing but blanks, so a text without a blank at either end is what is left of it with any gaps around.  **A
name** is a text that words are made of: it is not empty and has no blank.  Names with single spaces between them
are read back as their words. -/

namespace Lexer.Text

/-! ## (1) Trimming -/

/-- Trimming the end takes characters away from the end only. -/
theorem trimEnd_isPrefix (text : Text) : trimEnd text <+: text :=
  List.rdropWhile_prefix isBlank text

/-- Trimming adds no character. -/
theorem mem_of_mem_trim {c : Char} {text : Text} (member : c ∈ trim text) : c ∈ text :=
  (List.dropWhile_suffix isBlank).subset ((trimEnd_isPrefix _).subset member)

/-! ## (2) What is trimmed -/

/-- **A gap** is nothing but blanks, or nothing at all. -/
def IsGap (gap : Text) : Prop :=
  ∀ c ∈ gap, isBlank c = true

/-- **A tight text** has no blank at either end. -/
structure IsTight (text : Text) : Prop where
  /-- It does not start with a blank. -/
  start : ∀ c ∈ text.head?, isBlank c = false
  /-- It does not end with a blank. -/
  finish : ∀ c ∈ text.getLast?, isBlank c = false

/-- **A text inside another one**: nothing but gaps around it is added. -/
def IsInside (inner text : Text) : Prop :=
  ∃ before after, IsGap before ∧ IsGap after ∧ text = before ++ (inner ++ after)

/-- A gap in front is trimmed. -/
theorem trimStart_gap_append {gap : Text} (isGap : IsGap gap) (text : Text) :
    trimStart (gap ++ text) = trimStart text :=
  List.dropWhile_append_of_pos isGap

/-- A gap behind is trimmed. -/
theorem trimEnd_append_gap {gap : Text} (isGap : IsGap gap) (text : Text) :
    trimEnd (text ++ gap) = trimEnd text := by
  have reversed : ∀ c ∈ gap.reverse, isBlank c = true := fun c member =>
    isGap c (List.mem_reverse.1 member)
  rw [trimEnd, trimEnd, List.reverse_append, List.dropWhile_append_of_pos reversed]

/-- A text that does not start with a blank loses nothing at its start. -/
theorem trimStart_eq_self {text : Text} (start : ∀ c ∈ text.head?, isBlank c = false) :
    trimStart text = text := by
  cases text with
  | nil => rfl
  | cons c text =>
      have noBlank : isBlank c = false := start c rfl
      rw [trimStart, List.dropWhile_cons_of_neg (by rw [noBlank]; exact Bool.false_ne_true)]

/-- A text that does not end with a blank loses nothing at its end. -/
theorem trimEnd_eq_self {text : Text} (finish : ∀ c ∈ text.getLast?, isBlank c = false) :
    trimEnd text = text := by
  have reversed : trimStart text.reverse = text.reverse := by
    refine trimStart_eq_self fun c isFirst => finish c ?_
    rwa [List.head?_reverse] at isFirst
  rw [trimEnd, ← trimStart, reversed, List.reverse_reverse]

/-- What trimming leaves is tight. -/
theorem isTight_trim (text : Text) : IsTight (trim text) where
  start := by
    intro c isFirst
    -- what is left starts as it did when only its start was trimmed
    obtain ⟨rest, whole⟩ := trimEnd_isPrefix (trimStart text)
    have first : c ∈ (trimStart text).head? := by
      rw [← whole, ← trim, List.head?_append, isFirst, Option.some_or]
      rfl
    have left := List.head?_dropWhile_not isBlank text
    rw [← trimStart, first] at left
    exact left
  finish := by
    intro c isLast
    rw [trim, trimEnd, List.getLast?_reverse] at isLast
    have left := List.head?_dropWhile_not isBlank (trimStart text).reverse
    rw [isLast] at left
    exact left

/-- A text is what trimming leaves, with gaps around it. -/
theorem isInside_trim (text : Text) : IsInside (trim text) text := by
  refine ⟨text.takeWhile isBlank, (trimStart text).rtakeWhile isBlank,
    fun c member => List.mem_takeWhile_imp member,
    fun c member => List.mem_rtakeWhile_imp member, ?_⟩
  have back : trim text ++ (trimStart text).rtakeWhile isBlank = trimStart text :=
    List.rdropWhile_append_rtakeWhile
  rw [back, trimStart, List.takeWhile_append_dropWhile]

/-- **Trimming** takes away all the blanks around a text, and nothing else. -/
theorem trim_eq_iff {text inner : Text} : trim text = inner ↔ IsTight inner ∧ IsInside inner text := by
  constructor
  · rintro rfl
    exact ⟨isTight_trim text, isInside_trim text⟩
  · rintro ⟨tight, before, after, isGap, isGapAfter, rfl⟩
    rw [trim, trimStart_gap_append isGap]
    cases inner with
    | nil =>
        have nothing : trimStart after = [] := List.dropWhile_eq_nil_iff.2 isGapAfter
        rw [List.nil_append, nothing]
        rfl
    | cons c inner =>
        rw [trimStart_eq_self (by exact tight.start), trimEnd_append_gap isGapAfter,
          trimEnd_eq_self tight.finish]

/-- **Trimming twice** is trimming once. -/
theorem trim_trim (text : Text) : trim (trim text) = trim text :=
  trim_eq_iff.2 ⟨isTight_trim text, [], [], nofun, nofun, (List.append_nil (trim text)).symm⟩

/-! ## (3) Words -/

/-- **Names** are the texts that are words. -/
def IsName (name : Text) : Prop :=
  name ≠ [] ∧ ∀ c ∈ name, isBlank c = false

instance (name : Text) : Decidable (IsName name) :=
  decidable_of_iff (name ≠ [] ∧ name.any isBlank = false) <| and_congr_right fun _ => by
    simp only [List.any_eq_false, Bool.not_eq_true]

/-- A name is tight. -/
theorem IsName.isTight {name : Text} (isName : IsName name) : IsTight name where
  start c isFirst := isName.2 c (List.mem_of_mem_head? isFirst)
  finish c isLast := isName.2 c (List.mem_of_mem_getLast? isLast)

/-- A name holds no line feed. -/
theorem IsName.feed_not_mem {name : Text} (isName : IsName name) : '\n' ∉ name := by
  intro member
  exact absurd (isName.2 _ member) (by decide)

/-- Pieces between blanks hold none. -/
theorem blank_not_mem_splitOnP {text piece : Text} (member : piece ∈ text.splitOnP isBlank) :
    ∀ c ∈ piece, isBlank c = false := by
  induction text generalizing piece with
  | nil =>
      obtain rfl := List.mem_singleton.1 member
      exact fun c absent => absurd absent List.not_mem_nil
  | cons c text ih =>
      rw [List.splitOnP_cons_eq_if_modifyHead] at member
      split at member
      · rcases List.mem_cons.1 member with rfl | later
        · exact fun c absent => absurd absent List.not_mem_nil
        · exact ih later
      · next noBlank =>
          cases pieces : text.splitOnP isBlank with
          | nil => exact absurd pieces (List.splitOnP_ne_nil isBlank text)
          | cons first others =>
              rw [pieces] at member ih
              rcases List.mem_cons.1 member with rfl | later
              · rw [List.forall_mem_cons]
                exact ⟨Bool.eq_false_iff.2 noBlank, ih List.mem_cons_self⟩
              · exact ih (List.mem_cons_of_mem _ later)

/-- **Words are names.** -/
theorem isName_of_mem_words {text word : Text} (member : word ∈ words text) : IsName word := by
  obtain ⟨piece, full⟩ := List.mem_filter.1 member
  refine ⟨?_, blank_not_mem_splitOnP piece⟩
  rintro rfl
  exact absurd full (by decide)

/-- A blank in front of words is no part of them. -/
theorem words_blank_cons {c : Char} (blank : isBlank c = true) (text : Text) :
    words (c :: text) = words text := by
  rw [words, List.splitOnP_cons_eq_if_modifyHead, if_pos blank, List.filter_cons_of_neg (by decide), words]

/-- A name alone is the only word. -/
theorem words_name {name : Text} (isName : IsName name) : words name = [name] := by
  rw [words, List.splitOnP_eq_singleton isName.2]
  exact List.filter_cons_of_pos (by simpa using isName.1)

/-- A name up to a space is the first word. -/
theorem words_name_append {name : Text} (isName : IsName name) (rest : Text) :
    words (name ++ ' ' :: rest) = name :: words rest := by
  rw [words, List.splitOnP_append_cons_of_forall_mem isName.2 ' ' (by decide)]
  exact List.filter_cons_of_pos (by simpa using isName.1)

/-- **Names with spaces between them** are the words of the text they make up. -/
theorem words_intercalate {names : List Text} (isName : ∀ name ∈ names, IsName name) :
    words ([' '].intercalate names) = names := by
  induction names with
  | nil => rfl
  | cons name names ih =>
      rw [List.forall_mem_cons] at isName
      cases names with
      | nil => rw [List.intercalate_singleton, words_name isName.1]
      | cons next names =>
          rw [List.intercalate_cons_cons, List.append_assoc, List.singleton_append,
            words_name_append isName.1, ih isName.2]

/-- Names with spaces between them make up one line. -/
theorem feed_not_mem_intercalate {names : List Text} (isName : ∀ name ∈ names, IsName name) :
    '\n' ∉ [' '].intercalate names := by
  induction names with
  | nil => exact List.not_mem_nil
  | cons name names ih =>
      rw [List.forall_mem_cons] at isName
      have first := isName.1.feed_not_mem
      have others := ih isName.2
      cases names with
      | nil => rwa [List.intercalate_singleton]
      | cons next names =>
          rw [List.intercalate_cons_cons]
          simp [first, others]

end Lexer.Text
