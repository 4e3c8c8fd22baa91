import Lexer.Json.Number
import Lexer.Model.Restore
import Lexer.Text.Displayed

/-! # Faults of artifacts

An artifact may be no JSON text, it may not have the members that a model needs, or it may describe no
consistent model.  Messages name what was found and what was expected. -/

namespace Lexer.Artifact

/-- **What was found.** -/
inductive Found where
  /-- No value. -/
  | null
  /-- A truth value. -/
  | bool (value : Bool)
  /-- A whole number. -/
  | integer (value : Int)
  /-- Another number, written in double precision. -/
  | real (text : Text)
  /-- A string. -/
  | string (text : Text)
  /-- A list. -/
  | sequence
  /-- An object. -/
  | map
  /-- A bare name. -/
  | bareName
  deriving DecidableEq, Repr

/-- **What was expected.** -/
inductive Expected where
  /-- A record of some name. -/
  | record (name : Text)
  /-- A list. -/
  | sequence
  /-- A string. -/
  | string
  /-- A list of two items. -/
  | pair
  /-- A string of one character. -/
  | character
  /-- A natural number of 64 bits. -/
  | natural
  /-- Nothing. -/
  | nothing
  /-- A name with an argument. -/
  | argument
  deriving DecidableEq, Repr

/-- **Faults** of an artifact. -/
inductive Fault where
  /-- The text is no JSON. -/
  | json (fault : Json.Fault)
  /-- A value has the wrong type. -/
  | wrongType (found : Found) (expected : Expected)
  /-- A value has the right type but is not possible. -/
  | wrongValue (found : Found) (expected : Expected)
  /-- A list that stands for a record of some size ends too early. -/
  | shortRecord (length : Nat) (name : Text) (size : Nat)
  /-- A list that stands for a pair ends too early. -/
  | shortPair (length : Nat)
  /-- A member is not there. -/
  | missingMember (name : Text)
  /-- A member is there twice. -/
  | duplicateMember (name : Text)
  /-- No action has this name. -/
  | unknownAction (name : Text)
  /-- The states make no model. -/
  | model (fault : Model.RestoreFault)
  deriving DecidableEq, Repr

/-- The wording of what was found. -/
def Found.wording : Found → Text
  | .null => "null".toList
  | .bool true => "boolean `true`".toList
  | .bool false => "boolean `false`".toList
  | .integer (.ofNat n) => "integer `".toList ++ Decimal.write n ++ ['`']
  | .integer (.negSucc n) => "integer `-".toList ++ Decimal.write (n + 1) ++ ['`']
  | .real text => "floating point `".toList ++ text ++ ['`']
  | .string text => "string ".toList ++ Text.display text
  | .sequence => "sequence".toList
  | .map => "map".toList
  | .bareName => "unit variant".toList

/-- The wording of what was expected. -/
def Expected.wording : Expected → Text
  | .record name => "struct ".toList ++ name
  | .sequence => "a sequence".toList
  | .string => "a string".toList
  | .pair => "a tuple of size 2".toList
  | .character => "a character".toList
  | .natural => "usize".toList
  | .nothing => "unit".toList
  | .argument => "newtype variant".toList

/-- The message about a fault. -/
def Fault.message : Fault → Text
  | .json fault => fault.wording
  | .wrongType found expected =>
      "invalid type: ".toList ++ found.wording ++ ", expected ".toList ++ expected.wording
  | .wrongValue found expected =>
      "invalid value: ".toList ++ found.wording ++ ", expected ".toList ++ expected.wording
  | .shortRecord length name size =>
      "invalid length ".toList ++ Decimal.write length ++ ", expected struct ".toList ++ name ++
        " with ".toList ++ Decimal.write size ++ " elements".toList
  | .shortPair length =>
      "invalid length ".toList ++ Decimal.write length ++ ", expected a tuple of size 2".toList
  | .missingMember name => "missing field `".toList ++ name ++ ['`']
  | .duplicateMember name => "duplicate field `".toList ++ name ++ ['`']
  | .unknownAction name =>
      "unknown variant `".toList ++ name ++
        ("`, expected one of `Skip`, `DeclareClass`, `ChangeState`, " ++
          "`ComeBack`, `NewLine`").toList
  | .model fault => fault.message

end Lexer.Artifact
