import Lexer.Json.Number
import Lexer.Json.Quoted
import Lexer.Json.Value

/-! # Reading JSON

A text is read into a tree, as far as it is JSON.  **Damage** is part of the tree: a value may be
broken, and a list or an object has an ending that tells what follows its last item.  So a reader of
the tree meets the values and the damage in the order of the text, and reports whichever comes first.
Behind the first broken value nothing is read.

**Skipping** a tree checks only that it is well formed, with less care for numbers and strings. -/

namespace Lexer.Json

/-- **The ending** of a list or an object. -/
inductive Ending where
  /-- The closing bracket follows. -/
  | closed
  /-- The text ends. -/
  | atEnd
  /-- Something else than a comma or the closing bracket follows. -/
  | stray
  /-- A comma and then the closing bracket follow. -/
  | commaClosed
  /-- A comma follows, and then the text ends. -/
  | commaAtEnd
  /-- Something else than a string follows where a key should be. -/
  | noKey
  /-- The last item is broken. -/
  | cut
  deriving DecidableEq, Repr

/-- **The tree** of a JSON text, damage included. -/
inductive Tree where
  /-- The word for no value. -/
  | null
  /-- A truth value. -/
  | bool (value : Bool)
  /-- A number. -/
  | number (number : Number)
  /-- A string; its text may be faulty. -/
  | string (text : Except Fault Text)
  /-- A list. -/
  | list (items : List Tree) (ending : Ending)
  /-- An object: its keys and their trees in order. -/
  | object (members : List (Quoted × Tree)) (ending : Ending)
  /-- A malformed number. -/
  | brokenNumber (strict lenient : Fault)
  /-- A string without an end. -/
  | brokenString (strict lenient : Fault)
  /-- A misspelled word. -/
  | brokenWord (fault : Fault)
  /-- No value where one should be. -/
  | absent (fault : Fault)
  /-- No colon between a key and its value. -/
  | noColon (fault : Fault)
  deriving Repr

namespace Tree

/-- The tree is whole, so the text goes on behind it. -/
def isWhole : Tree → Bool
  | .list _ ending => ending = .closed
  | .object _ ending => ending = .closed
  | .brokenNumber .. | .brokenString .. | .brokenWord _ | .absent _ | .noColon _ => false
  | _ => true

/-- The fault that a reader meets behind the last item of a list that it goes on reading. -/
def listFault? : Ending → Option Fault
  | .closed => none
  | .atEnd => some .endInList
  | .commaClosed => some .trailingComma
  | .commaAtEnd => some .endInValue
  | .stray | .noKey | .cut => some .noCommaInList

/-- The fault that a reader meets behind the last member of an object that it goes on reading. -/
def objectFault? : Ending → Option Fault
  | .closed => none
  | .atEnd => some .endInObject
  | .commaClosed => some .trailingComma
  | .commaAtEnd => some .endInValue
  | .noKey => some .keyNotString
  | .stray | .cut => some .noCommaInObject

/-- The fault that a reader meets behind the last item of a list that it skips. -/
def skippedListFault? : Ending → Option Fault
  | .commaClosed => some .noValue
  | ending => listFault? ending

/-- The fault that a reader meets behind the last member of an object that it skips. -/
def skippedObjectFault? : Ending → Option Fault
  | .commaClosed => some .keyNotString
  | .commaAtEnd => some .endInObject
  | ending => objectFault? ending

mutual

/-- **Skip a tree**: the first fault of a reader who does not use it. -/
def skip : Tree → Option Fault
  | .null | .bool _ | .number _ | .string _ => none
  | .list items ending => (skipItems items).or (skippedListFault? ending)
  | .object members ending => (skipMembers members).or (skippedObjectFault? ending)
  | .brokenNumber _ lenient => some lenient
  | .brokenString _ lenient => some lenient
  | .brokenWord fault => some fault
  | .absent fault => some fault
  | .noColon fault => some fault

/-- Skip the items of a list. -/
def skipItems : List Tree → Option Fault
  | [] => none
  | item :: rest => item.skip.or (skipItems rest)

/-- Skip the members of an object. -/
def skipMembers : List (Quoted × Tree) → Option Fault
  | [] => none
  | (.broken _ lenient, _) :: _ => some lenient
  | (.whole _, value) :: rest => value.skip.or (skipMembers rest)

end

mutual

/-- **The tree of a value**, without any damage. -/
def ofValue : Value → Tree
  | .number n => .number (.natural (UInt64.ofNat n))
  | .string text => .string (.ok text)
  | .list items => .list (ofItems items) .closed
  | .object members => .object (ofMembers members) .closed

/-- The trees of some values. -/
def ofItems : List Value → List Tree
  | [] => []
  | item :: rest => ofValue item :: ofItems rest

/-- The trees of some members. -/
def ofMembers : List (Text × Value) → List (Quoted × Tree)
  | [] => []
  | (name, value) :: rest => (.whole (.ok name), ofValue value) :: ofMembers rest

end

end Tree

/-- The blanks of JSON are space, tab, line feed and carriage return. -/
def isSpace (c : Option Char) : Bool :=
  c = some ' ' || c = some '\t' || c = some '\n' || c = some '\r'

/-- Drop the blanks at the start. -/
def skipSpace (source : Marked) : Marked :=
  source.dropWhile isSpace

/-- Read the rest of a word that stands for a tree. -/
def word (tree : Tree) : (expected : Text) → Marked → Tree × Marked
  | [], source => (tree, source)
  | _ :: _, [] => (.brokenWord .endInValue, [])
  | c :: expected, found :: rest =>
      if found = some c then word tree expected rest else (.brokenWord .misspelledWord, rest)

/-- The tree of a number. -/
def numberTree (negative : Bool) (source : Marked) : Tree × Marked :=
  match numeral negative source with
  | (.whole number, rest) => (.number number, rest)
  | (.broken strict lenient, rest) => (.brokenNumber strict lenient, rest)

/-- The tree of a string, from behind its opening quotation mark. -/
def stringTree (source : Marked) : Tree × Marked :=
  match quoted source with
  | (.whole text, rest) => (.string text, rest)
  | (.broken strict lenient, rest) => (.brokenString strict lenient, rest)

mutual

/-- **Read a value** and the text after it.  The fuel bounds the number of steps. -/
def readValue : (fuel : Nat) → Marked → Tree × Marked
  | 0, source => (.absent .noValue, source)
  | fuel + 1, source =>
      match skipSpace source with
      | [] => (.absent .endInValue, [])
      | some 'n' :: rest => word .null ['u', 'l', 'l'] rest
      | some 't' :: rest => word (.bool true) ['r', 'u', 'e'] rest
      | some 'f' :: rest => word (.bool false) ['a', 'l', 's', 'e'] rest
      | some '-' :: rest => numberTree true rest
      | some '\x22' :: rest => stringTree rest
      | some '[' :: rest =>
          match skipSpace rest with
          | [] => (.list [] .atEnd, [])
          | some ']' :: rest => (.list [] .closed, rest)
          | rest =>
              let (items, ending, rest) := readItems fuel rest
              (.list items ending, rest)
      | some '{' :: rest =>
          let (members, ending, rest) := readMembers fuel .noKey rest
          (.object members ending, rest)
      | some c :: rest =>
          if Decimal.isDigit c then numberTree false (some c :: rest)
          else (.absent .noValue, some c :: rest)
      | rest => (.absent .noValue, rest)

/-- Read the items of a list from the start of one, its ending, and the text after it. -/
def readItems : (fuel : Nat) → Marked → List Tree × Ending × Marked
  | 0, source => ([], .stray, source)
  | fuel + 1, source =>
      let (item, rest) := readValue fuel source
      if !item.isWhole then ([item], .cut, rest)
      else
        match skipSpace rest with
        | [] => ([item], .atEnd, [])
        | some ']' :: rest => ([item], .closed, rest)
        | some ',' :: rest =>
            match skipSpace rest with
            | [] => ([item], .commaAtEnd, [])
            | some ']' :: rest => ([item], .commaClosed, rest)
            | rest =>
                let (items, ending, rest) := readItems fuel rest
                (item :: items, ending, rest)
        | rest => ([item], .stray, rest)

/-- Read the members of an object from where a key should be, its ending, and the text after it.
Without a key, the ending depends on whether a comma was read. -/
def readMembers : (fuel : Nat) → (without : Ending) → Marked →
    List (Quoted × Tree) × Ending × Marked
  | 0, without, source => ([], without, source)
  | fuel + 1, without, source =>
      match skipSpace source with
      | [] => ([], if without = .noKey then .atEnd else .commaAtEnd, [])
      | some '}' :: rest => ([], if without = .noKey then .closed else .commaClosed, rest)
      | some '\x22' :: rest =>
          match quoted rest with
          | (.broken strict lenient, rest) =>
              ([(.broken strict lenient, .absent .endInString)], .cut, rest)
          | (.whole key, rest) =>
              match skipSpace rest with
              | [] => ([(.whole key, .noColon .endInObject)], .cut, [])
              | some ':' :: rest =>
                  let (value, rest) := readValue fuel rest
                  if !value.isWhole then ([(.whole key, value)], .cut, rest)
                  else
                    match skipSpace rest with
                    | [] => ([(.whole key, value)], .atEnd, [])
                    | some '}' :: rest => ([(.whole key, value)], .closed, rest)
                    | some ',' :: rest =>
                        let (members, ending, rest) := readMembers fuel .commaClosed rest
                        ((.whole key, value) :: members, ending, rest)
                    | rest => ([(.whole key, value)], .stray, rest)
              | rest => ([(.whole key, .noColon .noColon)], .cut, rest)
      | rest => ([], .noKey, rest)

end

/-- **Read the value** at the start of a text, and the text after it. -/
def read (source : Marked) : Tree × Marked :=
  readValue (2 * source.length + 2) source

end Lexer.Json
