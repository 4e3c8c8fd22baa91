import Lexer.Json.Fault
import Lexer.Text.Marked

/-! # Reading JSON strings

A string is read from behind its opening quotation mark.  **Two readings** are kept apart.  The text
of a string is wanted by a reader who uses it, and then surrogates must come in pairs and the bytes
must be well-formed UTF-8.  A reader who skips the string minds only what hides its end: a control
character, an unknown escape, or the end of the text. -/

namespace Lexer.Json

/-- **A string that was read.** -/
inductive Quoted where
  /-- The string has an end; its text may be faulty. -/
  | whole (text : Except Fault Text)
  /-- The end was not found.  The first fault is `strict` for a reader who uses the string, and
  `lenient` for one who skips it. -/
  | broken (strict lenient : Fault)
  deriving Repr

/-- The value of a hexadecimal digit. -/
def hexValue? (c : Char) : Option Nat :=
  let code := c.toNat
  if '0'.toNat ≤ code ∧ code ≤ '9'.toNat then some (code - '0'.toNat)
  else if 'a'.toNat ≤ code ∧ code ≤ 'f'.toNat then some (code - 'a'.toNat + 10)
  else if 'A'.toNat ≤ code ∧ code ≤ 'F'.toNat then some (code - 'A'.toNat + 10)
  else none

/-- The value of four hexadecimal digits. -/
def hexCode? : (digits : List (Option Char)) → Option Nat
  | [some a, some b, some c, some d] => do
      let a ← hexValue? a
      let b ← hexValue? b
      let c ← hexValue? c
      let d ← hexValue? d
      return ((a * 16 + b) * 16 + c) * 16 + d
  | _ => none

/-- The marked text has at least some bytes. -/
def hasBytes : (count : Nat) → Marked → Bool
  | 0, _ => true
  | _ + 1, [] => false
  | count + 1, some c :: rest => hasBytes (count + 1 - c.utf8Size) rest
  | count + 1, none :: rest => hasBytes count rest

/-- The first half of a surrogate pair. -/
def isHighHalf (code : Nat) : Bool :=
  0xD800 ≤ code && code < 0xDC00

/-- The second half of a surrogate pair. -/
def isLowHalf (code : Nat) : Bool :=
  0xDC00 ≤ code && code < 0xE000

/-- The character of a surrogate pair. -/
def paired (high low : Nat) : Char :=
  Char.ofNat (0x10000 + (high - 0xD800) * 0x400 + (low - 0xDC00))

/-- The character that a short escape stands for. -/
def shortEscape? (c : Char) : Option Char :=
  if c = '\x22' ∨ c = '\\' ∨ c = '/' then some c
  else if c = 'b' then some '\x08'
  else if c = 'f' then some '\x0c'
  else if c = 'n' then some '\n'
  else if c = 'r' then some '\r'
  else if c = 't' then some '\t'
  else none

/-- **The state of reading** a string. -/
structure Partial where
  /-- The characters so far in reverse, or the first fault among them. -/
  text : Except Fault Text
  /-- Some byte was malformed. -/
  malformed : Bool
  /-- A first half of a surrogate pair was just read and waits for the second half. -/
  half : Option Nat

namespace Partial

/-- Nothing was read. -/
def start : Partial :=
  ⟨.ok [], false, none⟩

/-- Note a fault, unless there is one already. -/
def note (sofar : Partial) (fault : Fault) : Partial :=
  match sofar.text with
  | .ok _ => { sofar with text := .error fault }
  | .error _ => sofar

/-- No second half of a surrogate pair follows. -/
def settle (sofar : Partial) : Partial :=
  match sofar.half with
  | some _ => { sofar.note .missingSurrogate with half := none }
  | none => sofar

/-- Add a character. -/
def push (sofar : Partial) (c : Char) : Partial :=
  { sofar.settle with text := sofar.settle.text.map fun text => c :: text }

/-- Add a malformed byte. -/
def pushMark (sofar : Partial) : Partial :=
  { sofar.settle with malformed := true }

/-- Add the code of an escape. -/
def pushCode (sofar : Partial) (code : Nat) : Partial :=
  match sofar.half with
  | some high =>
      if isLowHalf code then { sofar with half := none }.push (paired high code)
      else { sofar.note .loneSurrogate with half := none }
  | none =>
      if isHighHalf code then { sofar with half := some code }
      else if isLowHalf code then sofar.note .loneSurrogate
      else sofar.push (Char.ofNat code)

/-- The end of the string. -/
def close (sofar : Partial) : Quoted :=
  match sofar.settle.text with
  | .ok text => .whole (if sofar.malformed then .error .badEncoding else .ok text.reverse)
  | .error fault => .whole (.error fault)

/-- The string breaks off. -/
def breakOff (sofar : Partial) (fault : Fault) : Quoted :=
  match sofar.text with
  | .ok _ => .broken fault fault
  | .error first => .broken first fault

end Partial

/-- **Read a string** from behind its opening quotation mark, and the text after it. -/
def quotedFrom (sofar : Partial) : Marked → Quoted × Marked
  | [] => (sofar.breakOff .endInString, [])
  | some '\x22' :: rest => (sofar.close, rest)
  | [some '\\'] => (sofar.breakOff .endInString, [])
  | some '\\' :: some 'u' :: a :: b :: c :: d :: rest =>
      match hexCode? [a, b, c, d] with
      | some code => quotedFrom (sofar.pushCode code) rest
      | none =>
          let following := a :: b :: c :: d :: rest
          (sofar.breakOff (if hasBytes 4 following then .badEscape else .endInString), following)
  | some '\\' :: some 'u' :: rest =>
      (sofar.breakOff (if hasBytes 4 rest then .badEscape else .endInString), rest)
  | some '\\' :: some c :: rest =>
      match shortEscape? c with
      | some c => quotedFrom (sofar.push c) rest
      | none => (sofar.settle.breakOff .badEscape, rest)
  | some '\\' :: none :: rest => (sofar.settle.breakOff .badEscape, rest)
  | some c :: rest =>
      if c.toNat < 0x20 then (sofar.settle.breakOff .controlCharacter, rest)
      else quotedFrom (sofar.push c) rest
  | none :: rest => quotedFrom sofar.pushMark rest

/-- **Read a string** from behind its opening quotation mark, and the text after it. -/
def quoted (source : Marked) : Quoted × Marked :=
  quotedFrom .start source

end Lexer.Json
