import Lexer.Json.Quoted
import Lexer.Json.Value

/-! # Strings are read back

A written string is read back character by character.  **While only written characters were read**, the
state of reading holds them in reverse, without a fault, a malformed byte or half of a surrogate pair.
Every character adds itself, whether it is written as it stands, with a backslash in front, or by its
code, and the closing quotation mark gives the text. -/

namespace Lexer.Json

/-- **The state of reading** after some characters, given in reverse. -/
def Partial.ofReversed (text : Text) : Partial :=
  ⟨.ok text, false, none⟩

/-- The end gives the text. -/
theorem Partial.close_ofReversed (text : Text) :
    (Partial.ofReversed text).close = .whole (.ok text.reverse) :=
  rfl

/-- A control character is found by the two digits of its code. -/
theorem hexCode?_control {code : Nat} (control : code < 0x20) :
    hexCode? [some '0', some '0', some (hexDigit (code / 16)), some (hexDigit (code % 16))] =
      some code := by
  have all : ∀ code : Fin 0x20,
      hexCode? [some '0', some '0', some (hexDigit (code / 16)), some (hexDigit (code % 16))] =
        some code.val := by decide
  exact all ⟨code, control⟩

/-- The code of a control character is that of no surrogate. -/
theorem Partial.pushCode_ofReversed (text : Text) {code : Nat} (control : code < 0x20) :
    (Partial.ofReversed text).pushCode code = Partial.ofReversed (Char.ofNat code :: text) := by
  have noHigh : isHighHalf code = false := by
    rw [isHighHalf, Bool.and_eq_false_iff, decide_eq_false_iff_not]
    exact .inl (by omega)
  have noLow : isLowHalf code = false := by
    rw [isLowHalf, Bool.and_eq_false_iff, decide_eq_false_iff_not]
    exact .inl (by omega)
  simp only [pushCode, ofReversed, noHigh, noLow, Bool.false_eq_true, if_false]
  rfl

/-- A short escape is read as its character. -/
theorem quotedFrom_shortEscape (text : Text) {mark c : Char} (known : shortEscape? mark = some c)
    (rest : Marked) :
    quotedFrom (.ofReversed text) (some '\\' :: some mark :: rest) =
      quotedFrom (.ofReversed (c :: text)) rest := by
  -- the mark of a code is followed by digits, and is no short escape
  have noCode : mark ≠ 'u' := by
    rintro rfl
    simp [shortEscape?] at known
  rw [quotedFrom, known]
  · rfl
  · intro _ _ _ _ _ _ same
    exact noCode same
  · exact noCode

/-- A character that is written as it stands is read as it stands. -/
theorem quotedFrom_plain (text : Text) {c : Char} (noQuote : c ≠ '\x22') (noBackslash : c ≠ '\\')
    (noControl : ¬ c.toNat < 0x20) (rest : Marked) :
    quotedFrom (.ofReversed text) (some c :: rest) = quotedFrom (.ofReversed (c :: text)) rest := by
  rw [quotedFrom, if_neg noControl]
  · rfl
  all_goals simp_all

/-- **A written character** is read back. -/
theorem quotedFrom_writeChar (text : Text) (c : Char) (rest : Marked) :
    quotedFrom (.ofReversed text) ((writeChar c).marked ++ rest) =
      quotedFrom (.ofReversed (c :: text)) rest := by
  rw [writeChar]
  split
  · next escaped =>
      refine quotedFrom_shortEscape text ?_ rest
      rw [shortEscape?, if_pos]
      rcases escaped with rfl | rfl
      · exact .inl rfl
      · exact .inr (.inl rfl)
  next special =>
  split
  · next same =>
      subst same
      exact quotedFrom_shortEscape text (by decide) rest
  split
  · next same =>
      subst same
      exact quotedFrom_shortEscape text (by decide) rest
  split
  · next same =>
      subst same
      exact quotedFrom_shortEscape text (by decide) rest
  split
  · next same =>
      subst same
      exact quotedFrom_shortEscape text (by decide) rest
  split
  · next same =>
      subst same
      exact quotedFrom_shortEscape text (by decide) rest
  split
  · next control =>
      -- all other control characters are written by their code of four digits
      simp only [Text.marked_cons, Text.marked_nil, List.cons_append, List.nil_append]
      rw [quotedFrom, hexCode?_control control]
      simp only
      rw [Partial.pushCode_ofReversed text control, Char.ofNat_toNat]
  · next noControl =>
      rw [not_or] at special
      exact quotedFrom_plain text special.1 special.2 noControl rest

/-- **Some written characters** are read back. -/
theorem quotedFrom_flatMap (before text : Text) (rest : Marked) :
    quotedFrom (.ofReversed before) (Text.marked (text.flatMap writeChar) ++ rest) =
      quotedFrom (.ofReversed (text.reverse ++ before)) rest := by
  -- the characters that were read pile up in reverse
  induction text generalizing before with
  | nil => rfl
  | cons c text ih =>
      rw [List.flatMap_cons, Text.marked_append, List.append_assoc, quotedFrom_writeChar, ih,
        List.reverse_cons, List.append_assoc, List.singleton_append]

/-- **A written string** is read back, from behind its opening quotation mark. -/
theorem quoted_writeString (text : Text) (rest : Marked) :
    quoted (Text.marked (text.flatMap writeChar) ++ some '\x22' :: rest) = (.whole (.ok text), rest) := by
  have start : Partial.start = .ofReversed [] := rfl
  rw [quoted, start, quotedFrom_flatMap, List.append_nil, quotedFrom, Partial.close_ofReversed,
    List.reverse_reverse]

end Lexer.Json
