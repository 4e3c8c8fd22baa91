import Lexer.Text.Basic

/-! # Faults of JSON text

What can be wrong with a text that should be JSON, apart from what it says.  Some faults only mean
that the text ends too early. -/

namespace Lexer.Json

/-- **Faults** of a JSON text. -/
inductive Fault where
  /-- The text ends where a value should be. -/
  | endInValue
  /-- The text ends inside a list. -/
  | endInList
  /-- The text ends inside an object. -/
  | endInObject
  /-- The text ends inside a string. -/
  | endInString
  /-- A character starts no value. -/
  | noValue
  /-- A word is not one of the three that JSON knows. -/
  | misspelledWord
  /-- A key is not followed by a colon. -/
  | noColon
  /-- An item of a list is followed by neither a comma nor the end. -/
  | noCommaInList
  /-- A member of an object is followed by neither a comma nor the end. -/
  | noCommaInObject
  /-- A key is not a string. -/
  | keyNotString
  /-- A comma is followed by the end. -/
  | trailingComma
  /-- Something follows where nothing should. -/
  | trailingText
  /-- A number is malformed. -/
  | badNumber
  /-- A number exceeds every finite number. -/
  | numberTooLarge
  /-- An escape is unknown. -/
  | badEscape
  /-- A half of a surrogate pair stands alone. -/
  | loneSurrogate
  /-- The first half of a surrogate pair is followed by no escape. -/
  | missingSurrogate
  /-- A string is not well-formed UTF-8. -/
  | badEncoding
  /-- A string holds a control character. -/
  | controlCharacter
  deriving DecidableEq, Repr

namespace Fault

/-- The text just ends too early. -/
def isEnd : Fault → Bool
  | .endInValue | .endInList | .endInObject | .endInString => true
  | _ => false

/-- The wording of a fault. -/
def wording : Fault → Text
  | .endInValue => "EOF while parsing a value".toList
  | .endInList => "EOF while parsing a list".toList
  | .endInObject => "EOF while parsing an object".toList
  | .endInString => "EOF while parsing a string".toList
  | .noValue => "expected value".toList
  | .misspelledWord => "expected ident".toList
  | .noColon => "expected `:`".toList
  | .noCommaInList => "expected `,` or `]`".toList
  | .noCommaInObject => "expected `,` or `\x7d`".toList
  | .keyNotString => "key must be a string".toList
  | .trailingComma => "trailing comma".toList
  | .trailingText => "trailing characters".toList
  | .badNumber => "invalid number".toList
  | .numberTooLarge => "number out of range".toList
  | .badEscape => "invalid escape".toList
  | .loneSurrogate => "lone leading surrogate in hex escape".toList
  | .missingSurrogate => "unexpected end of hex escape".toList
  | .badEncoding => "invalid unicode code point".toList
  | .controlCharacter => "control character (\\u0000-\\u001F) found while parsing a string".toList

end Fault

end Lexer.Json
