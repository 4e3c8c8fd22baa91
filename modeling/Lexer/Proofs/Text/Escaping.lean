import Lexer.Text.Escaped
import Mathlib.Tactic.Common

/-! # Escaped text is read back

An escape says which character it stands for: by a letter, by the character itself, or by its code point, whose
digits end at the brace.  **Reading goes escape by escape**, so an escaped text stands for one text only, and two
texts that differ are escaped differently.  An escaped text is one line. -/

namespace Lexer.Text

/-! ## (1) Hexadecimal numbers -/

/-- The value of a hexadecimal digit. -/
def hexValue (c : Char) : Nat :=
  if Decimal.isDigit c then Decimal.digitValue c else c.toNat - 'a'.toNat + 10

/-- The number that hexadecimal digits continue, from the number in front of them. -/
def hexFrom (number : Nat) (digits : Text) : Nat :=
  digits.foldl (fun value digit => value * 16 + hexValue digit) number

/-- Hexadecimal digits in lower case. -/
def isHexDigit (c : Char) : Bool :=
  Decimal.isDigit c || ('a'.toNat ≤ c.toNat && c.toNat ≤ 'f'.toNat)

/-- The character of a hexadecimal digit has its value. -/
theorem hexValue_digitChar {digit : Nat} (small : digit < 16) :
    hexValue digit.digitChar = digit ∧ isHexDigit digit.digitChar = true := by
  have all : ∀ d : Fin 16, hexValue d.val.digitChar = d ∧ isHexDigit d.val.digitChar = true := by decide
  exact all ⟨digit, small⟩

/-- The hexadecimal digits of a number: one digit, or those of a smaller number and one more. -/
theorem hexDigits_eq (number : Nat) :
    hexDigits number = if number < 16 then [number.digitChar]
      else hexDigits (number / 16) ++ [(number % 16).digitChar] :=
  Nat.toDigits_eq_if (by decide)

/-- **Hexadecimal digits** have the value of their number. -/
theorem hexFrom_hexDigits (number : Nat) : hexFrom 0 (hexDigits number) = number := by
  induction number using Nat.strongRecOn with
  | ind number ih =>
      rw [hexDigits_eq]
      split
      · next small =>
          have value := (hexValue_digitChar small).1
          rw [hexFrom, List.foldl_cons, List.foldl_nil, value, Nat.zero_mul, Nat.zero_add]
      · next large =>
          have front := ih (number / 16) (by omega)
          have last := (hexValue_digitChar (Nat.mod_lt number (by decide : 0 < 16))).1
          rw [hexFrom] at front ⊢
          rw [List.foldl_append, front, List.foldl_cons, List.foldl_nil, last]
          omega

/-- The hexadecimal digits of a number are such digits. -/
theorem isHexDigit_of_mem_hexDigits (number : Nat) : ∀ c ∈ hexDigits number, isHexDigit c = true := by
  induction number using Nat.strongRecOn with
  | ind number ih =>
      rw [hexDigits_eq]
      split
      · next small => exact List.forall_mem_singleton.2 (hexValue_digitChar small).2
      · next large =>
          have last := hexValue_digitChar (Nat.mod_lt number (by decide : 0 < 16))
          exact List.forall_mem_append.2
            ⟨ih (number / 16) (by omega), List.forall_mem_singleton.2 last.2⟩

/-- A character that is no hexadecimal digit is not among those of a number. -/
theorem not_mem_hexDigits {c : Char} (other : isHexDigit c = false) (number : Nat) :
    c ∉ hexDigits number := by
  intro member
  rw [isHexDigit_of_mem_hexDigits number c member] at other
  exact nomatch other

/-! ## (2) Reading escapes -/

/-- **The character that a letter stands for** behind a backslash. -/
def shortEscape? (c : Char) : Option Char :=
  if c = 't' then some '\t'
  else if c = 'r' then some '\r'
  else if c = 'n' then some '\n'
  else if c = '\x27' || c = '\x22' || c = '\\' then some c
  else none

mutual

/-- **The text that an escaped text stands for**, if it is one. -/
def unescape? : Text → Option Text
  | [] => some []
  | '\\' :: 'u' :: '{' :: rest => unescapeCode? 0 rest
  | '\\' :: c :: rest =>
      match shortEscape? c with
      | some its => (unescape? rest).map fun text => its :: text
      | none => none
  | c :: rest =>
      if escapeChar c = [c] then (unescape? rest).map fun text => c :: text else none

/-- The text behind the start of a code point, given the number that its digits make up so far. -/
def unescapeCode? (code : Nat) : Text → Option Text
  | [] => none
  | '}' :: rest => (unescape? rest).map fun text => Char.ofNat code :: text
  | digit :: rest => unescapeCode? (code * 16 + hexValue digit) rest

end

/-- A short escape stands for its character. -/
theorem unescape?_short {mark c : Char} (known : shortEscape? mark = some c) (rest : Text) :
    unescape? ('\\' :: mark :: rest) = (unescape? rest).map fun text => c :: text := by
  rw [unescape?, known]
  -- the letter of a code point is no short escape
  rintro after rfl -
  exact nomatch known

/-- A character that is not escaped stands for itself. -/
theorem unescape?_plain {c : Char} (noBackslash : c ≠ '\\') (plain : escapeChar c = [c]) (rest : Text) :
    unescape? (c :: rest) = (unescape? rest).map fun text => c :: text := by
  rw [unescape?, if_pos plain]
  · rintro after rfl
    exact absurd rfl noBackslash
  · rintro d after rfl
    exact absurd rfl noBackslash

/-- A character of a code point is read. -/
theorem unescapeCode?_cons {digit : Char} (noBrace : digit ≠ '}') (code : Nat) (rest : Text) :
    unescapeCode? code (digit :: rest) = unescapeCode? (code * 16 + hexValue digit) rest := by
  rw [unescapeCode?]
  exact noBrace

/-- The digits of a code point are read up to the brace. -/
theorem unescapeCode?_append {digits : Text} (noBrace : '}' ∉ digits) (code : Nat) (rest : Text) :
    unescapeCode? code (digits ++ '}' :: rest) =
      (unescape? rest).map fun text => Char.ofNat (hexFrom code digits) :: text := by
  induction digits generalizing code with
  | nil => rw [List.nil_append, unescapeCode?]; rfl
  | cons digit digits ih =>
      rw [List.mem_cons, not_or] at noBrace
      rw [List.cons_append, unescapeCode?_cons (Ne.symm noBrace.1), ih noBrace.2]
      rfl

/-- The escape of a code point stands for its character. -/
theorem unescape?_escapeCode (c : Char) (rest : Text) :
    unescape? (escapeCode c ++ rest) = (unescape? rest).map fun text => c :: text := by
  have noBrace : '}' ∉ hexDigits c.toNat := not_mem_hexDigits (by decide) c.toNat
  have shape : escapeCode c ++ rest = '\\' :: 'u' :: '{' :: (hexDigits c.toNat ++ '}' :: rest) := by
    rw [escapeCode, List.cons_append, List.cons_append, List.cons_append, List.append_assoc,
      List.singleton_append]
  rw [shape, unescape?, unescapeCode?_append noBrace, hexFrom_hexDigits, Char.ofNat_toNat]

/-- **An escaped character** stands for the character. -/
theorem unescape?_escapeChar (c : Char) (rest : Text) :
    unescape? (escapeChar c ++ rest) = (unescape? rest).map fun text => c :: text := by
  by_cases tab : c = '\t'
  · subst tab
    exact unescape?_short rfl rest
  by_cases carriage : c = '\r'
  · subst carriage
    exact unescape?_short rfl rest
  by_cases feed : c = '\n'
  · subst feed
    exact unescape?_short rfl rest
  by_cases marked : (c = '\x27' || c = '\x22' || c = '\\') = true
  · have itself : shortEscape? c = some c := by
      simp only [Bool.or_eq_true, decide_eq_true_iff] at marked
      rcases marked with (rfl | rfl) | rfl
      · rfl
      · rfl
      · rfl
    rw [escapeChar, if_neg tab, if_neg carriage, if_neg feed, if_pos marked]
    exact unescape?_short itself rest
  by_cases printed : (0x20 ≤ c.toNat && c.toNat ≤ 0x7E) = true
  · have plain : escapeChar c = [c] := by
      rw [escapeChar, if_neg tab, if_neg carriage, if_neg feed, if_neg marked, if_pos printed]
    have noBackslash : c ≠ '\\' := by
      rintro rfl
      exact absurd rfl marked
    rw [plain]
    exact unescape?_plain noBackslash plain rest
  · rw [escapeChar, if_neg tab, if_neg carriage, if_neg feed, if_neg marked, if_neg printed]
    exact unescape?_escapeCode c rest

/-- An escaped text stands for the text, whatever follows. -/
theorem unescape?_escape_append (text rest : Text) :
    unescape? (escape text ++ rest) = (unescape? rest).map fun behind => text ++ behind := by
  induction text with
  | nil => exact Option.map_id'.symm
  | cons c text ih =>
      rw [escape_cons, List.append_assoc, unescape?_escapeChar, ih, Option.map_map]
      rfl

/-- **An escaped text** stands for the text. -/
theorem unescape?_escape (text : Text) : unescape? (escape text) = some text := by
  have known := unescape?_escape_append text []
  rwa [List.append_nil, unescape?, Option.map_some, List.append_nil] at known

/-- **Texts that differ** are escaped differently. -/
theorem escape_inj {left right : Text} : escape left = escape right ↔ left = right := by
  refine ⟨fun same => ?_, congrArg escape⟩
  have known := unescape?_escape left
  rw [same, unescape?_escape right] at known
  exact (Option.some.inj known).symm

/-! ## (3) What is left in escaped text -/

/-- An escaped character is one line. -/
theorem feed_not_mem_escapeChar (c : Char) : '\n' ∉ escapeChar c := by
  rw [escapeChar]
  split
  · decide
  split
  · decide
  split
  · decide
  split
  · next noFeed _ =>
      rw [List.mem_cons, List.mem_singleton, not_or]
      exact ⟨by decide, Ne.symm noFeed⟩
  split
  · next noFeed _ _ =>
      rw [List.mem_singleton]
      exact Ne.symm noFeed
  · have digits : '\n' ∉ hexDigits c.toNat := not_mem_hexDigits (by decide) c.toNat
    rw [escapeCode]
    simp [digits]

/-- **Escaped text** is one line. -/
theorem feed_not_mem_escape (text : Text) : '\n' ∉ escape text := by
  intro member
  obtain ⟨c, -, isEscaped⟩ := List.mem_flatMap.1 member
  exact feed_not_mem_escapeChar c isEscaped

end Lexer.Text
