import Lexer.Text.Basic

/-! # Bytes as text

Files hold bytes.  **Marked text** is what a reader sees of them: the characters whose UTF-8 encodings
follow each other, and a mark for every byte that belongs to no character.  A reader can so go on
behind a malformed byte and report it only where it matters.  The bytes of a text are read as that
text without any mark. -/

namespace Lexer

/-- **Marked text**: characters, and a mark for every malformed byte. -/
abbrev Marked := List (Option Char)

namespace Text

/-- The bytes of a text in UTF-8. -/
def bytes (text : Text) : List UInt8 :=
  text.flatMap String.utf8EncodeChar

/-- Text without marks. -/
def marked (text : Text) : Marked :=
  text.map some

/-- No text has no character. -/
@[simp] theorem marked_nil : marked [] = [] :=
  rfl

/-- The first character stays the first one. -/
@[simp] theorem marked_cons (c : Char) (text : Text) : marked (c :: text) = some c :: marked text :=
  rfl

/-- Characters of a concatenation follow each other. -/
@[simp] theorem marked_append (left right : Text) :
    marked (left ++ right) = marked left ++ marked right :=
  List.map_append

/-- Text without marks has as many characters. -/
@[simp] theorem length_marked (text : Text) : (marked text).length = text.length :=
  List.length_map some

end Text

namespace Marked

/-- The character that some bytes start with. -/
def first? (bytes : List UInt8) : Option Char :=
  (bytes.take 4).toByteArray.utf8DecodeChar? 0

/-- **Read bytes** as marked text. -/
def ofBytes : List UInt8 → Marked
  | [] => []
  | byte :: rest =>
      match first? (byte :: rest) with
      | some c => some c :: ofBytes ((byte :: rest).drop c.utf8Size)
      | none => none :: ofBytes rest
  termination_by bytes => bytes.length
  decreasing_by
    · have := Char.utf8Size_pos c
      simp only [List.length_drop, List.length_cons]
      omega
    · simp

/-- The text without marks that a marked text is, if it has no mark. -/
def toText? (marked : Marked) : Option Text :=
  marked.mapM id

/-- The bytes of a character are recognized, whatever follows. -/
theorem first?_utf8EncodeChar_append (c : Char) (rest : List UInt8) :
    first? (String.utf8EncodeChar c ++ rest) = some c := by
  have short : (String.utf8EncodeChar c).length ≤ 4 := by
    simp only [String.utf8EncodeChar]
    split <;> (try split) <;> (try split) <;> simp
  rw [first?, List.take_append, List.take_of_length_le short, List.toByteArray_append]
  exact ByteArray.utf8DecodeChar?_utf8EncodeChar_append

/-- The bytes of a text are read as the text. -/
theorem ofBytes_bytes (text : Text) : ofBytes text.bytes = text.marked := by
  induction text with
  | nil => simp [Text.bytes, Text.marked, ofBytes]
  | cons c rest ih =>
      have split : Text.bytes (c :: rest) = String.utf8EncodeChar c ++ Text.bytes rest := by
        simp [Text.bytes]
      have known := first?_utf8EncodeChar_append c (Text.bytes rest)
      rw [split]
      cases encoded : String.utf8EncodeChar c with
      | nil =>
          have positive := Char.utf8Size_pos c
          rw [← String.length_utf8EncodeChar, encoded] at positive
          simp at positive
      | cons byte others =>
          rw [encoded] at known
          rw [List.cons_append] at known ⊢
          rw [ofBytes]
          simp only [known]
          rw [← List.cons_append, ← encoded, ← String.length_utf8EncodeChar,
            List.drop_left, ih]
          simp [Text.marked]

/-- Text without marks is the text it was made of. -/
@[simp] theorem toText?_marked (text : Text) : toText? text.marked = some text := by
  induction text with
  | nil => rfl
  | cons c rest ih =>
      simp only [toText?, Text.marked, List.map_cons, List.mapM_cons] at *
      simp [ih]

end Marked

end Lexer
