import Lexer.Artifact.Fault
import Lexer.Json.Tree

/-! # Decoding models

An artifact is decoded in the order of its text, and the first problem is the fault.  **A record** is an
object with its members in any order, of which unknown ones are skipped, or a list of its members in
the order of their declaration.  When everything is decoded, the states have to make a model; only
then is text behind the value a fault. -/

namespace Lexer.Artifact

open Json (Tree Ending Quoted)

/-- **A decoder** takes a value from a tree. -/
abbrev Decoder (α : Type) := Tree → Except Fault α

/-! ## (1) Plain values -/

/-- The fault of a tree that is not what was expected. -/
def mismatch (expected : Expected) : Tree → Fault
  | .null => .wrongType .null expected
  | .bool value => .wrongType (.bool value) expected
  | .number (.natural n) => .wrongType (.integer n.toNat) expected
  | .number (.negative n) => .wrongType (.integer (-n)) expected
  | .number (.decimal negative significand exponent) =>
      match Json.Number.write? negative significand exponent with
      | some text => .wrongType (.real text) expected
      | none => .json .numberTooLarge
  | .string (.ok text) => .wrongType (.string text) expected
  | .string (.error fault) => .json fault
  | .list _ _ => .wrongType .sequence expected
  | .object _ _ => .wrongType .map expected
  | .brokenNumber strict _ => .json strict
  | .brokenString strict _ => .json strict
  | .brokenWord fault => .json fault
  | .absent fault => .json fault
  | .noColon fault => .json fault

/-- A natural number of 64 bits. -/
def natural : Decoder Nat
  | .number (.natural n) => .ok n.toNat
  | .number (.negative n) => .error (.wrongValue (.integer (-n)) .natural)
  | tree => .error (mismatch .natural tree)

/-- A string. -/
def string : Decoder Text
  | .string (.ok text) => .ok text
  | tree => .error (mismatch .string tree)

/-- A string of one character. -/
def character : Decoder Char
  | .string (.ok [c]) => .ok c
  | .string (.ok text) => .error (.wrongValue (.string text) .character)
  | tree => .error (mismatch .character tree)

/-- Nothing. -/
def nothing : Decoder Unit
  | .null => .ok ()
  | tree => .error (mismatch .nothing tree)

/-! ## (2) Lists -/

/-- Decode the items of a list one by one. -/
def items (decode : Decoder α) (ending : Ending) : List Tree → Except Fault (List α)
  | [] =>
      match Tree.listFault? ending with
      | none => .ok []
      | some fault => .error (.json fault)
  | item :: rest =>
      match decode item with
      | .error fault => .error fault
      | .ok value => (items decode ending rest).map fun values => value :: values

/-- **A list** of any length. -/
def list (decode : Decoder α) : Decoder (List α)
  | .list trees ending => items decode ending trees
  | tree => .error (mismatch .sequence tree)

/-- The fault of a list of fixed length that should have one more item. -/
def shortList (ending : Ending) (short : Fault) : Fault :=
  match Tree.listFault? ending with
  | none => short
  | some fault => .json fault

/-- The end of a list of fixed length, of which some items may be left over. -/
def endOfList (left : List Tree) (ending : Ending) : Except Fault Unit :=
  match left, ending with
  | [], .closed => .ok ()
  | [], .atEnd => .error (.json .endInList)
  | [], .commaClosed => .error (.json .trailingComma)
  | _, _ => .error (.json .trailingText)

/-- **A pair** of values of one kind. -/
def pair (decode : Decoder α) : Decoder (α × α)
  | .list [] ending => .error (shortList ending (.shortPair 0))
  | .list (first :: rest) ending => do
      let first ← decode first
      match rest with
      | [] => .error (shortList ending (.shortPair 1))
      | second :: rest =>
          let second ← decode second
          endOfList rest ending
          return (first, second)
  | tree => .error (mismatch .pair tree)

/-! ## (3) Records -/

/-- **A member** of a record whose values are collected in `σ`. -/
structure Member (σ : Type) where
  /-- The name of the member. -/
  name : Text
  /-- The member was decoded already. -/
  isSet : σ → Bool
  /-- Decode the member. -/
  decode : Tree → σ → Except Fault σ

/-- A member with a place for its value. -/
def Member.at (name : String) (get : σ → Option α) (set : α → σ → σ) (decode : Decoder α) :
    Member σ :=
  ⟨name.toList, fun values => (get values).isSome,
    fun tree values => (decode tree).map fun value => set value values⟩

/-- **A record**: its members in order, and the record that their values make. -/
structure Shape (σ α : Type) where
  /-- The name of the record. -/
  name : Text
  /-- The members in the order of their declaration. -/
  members : List (Member σ)
  /-- No member was decoded. -/
  start : σ
  /-- The record of the decoded members, or the first one that is missing. -/
  finish : σ → Except Fault α

/-- The text of a key. -/
def keyText : Quoted → Except Fault Text
  | .whole (.ok text) => .ok text
  | .whole (.error fault) => .error (.json fault)
  | .broken strict _ => .error (.json strict)

/-- Decode one member of an object; an unknown one is skipped. -/
def takeMember (members : List (Member σ)) (values : σ) (name : Text) (tree : Tree) :
    Except Fault σ :=
  match members.find? fun member => member.name = name with
  | some member =>
      if member.isSet values then .error (.duplicateMember name) else member.decode tree values
  | none =>
      match tree.skip with
      | some fault => .error (.json fault)
      | none => .ok values

/-- Decode the members of an object in the order of the text. -/
def takeMembers (members : List (Member σ)) (values : σ) (ending : Ending) :
    List (Quoted × Tree) → Except Fault σ
  | [] =>
      match Tree.objectFault? ending with
      | none => .ok values
      | some fault => .error (.json fault)
  | (key, tree) :: rest =>
      match keyText key with
      | .error fault => .error fault
      | .ok name =>
          match takeMember members values name tree with
          | .error fault => .error fault
          | .ok values => takeMembers members values ending rest

/-- Decode the items of a list in the order of the members. -/
def takeItems (short : Nat → Fault) (values : σ) (ending : Ending) (position : Nat) :
    List (Member σ) → List Tree → Except Fault σ
  | [], left => (endOfList left ending).map fun _ => values
  | _ :: _, [] => .error (shortList ending (short position))
  | member :: members, tree :: trees =>
      match member.decode tree values with
      | .error fault => .error fault
      | .ok values => takeItems short values ending (position + 1) members trees

/-- **A record**, as an object or as a list. -/
def record (shape : Shape σ α) : Decoder α
  | .object members ending =>
      takeMembers shape.members shape.start ending members >>= shape.finish
  | .list trees ending =>
      takeItems (fun length => .shortRecord length shape.name shape.members.length)
        shape.start ending 0 shape.members trees >>= shape.finish
  | tree => .error (mismatch (.record shape.name) tree)

/-- The value of a member that must be there. -/
def required (name : String) : Option α → Except Fault α
  | some value => .ok value
  | none => .error (.missingMember name.toList)

/-- The values of two members. -/
abbrev Two (α β : Type) := Option α × Option β

/-- The values of three members. -/
abbrev Three (α β γ : Type) := Option α × Option β × Option γ

/-- A record of two members. -/
def shape₂ (name first second : String) (decodeFirst : Decoder α) (decodeSecond : Decoder β)
    (make : α → β → δ) : Shape (Two α β) δ where
  name := name.toList
  members :=
    [.at first (·.1) (fun value values => (some value, values.2)) decodeFirst,
      .at second (·.2) (fun value values => (values.1, some value)) decodeSecond]
  start := (none, none)
  finish values := do
    let firstValue ← required first values.1
    let secondValue ← required second values.2
    return make firstValue secondValue

/-- A record of three members. -/
def shape₃ (name first second third : String) (decodeFirst : Decoder α)
    (decodeSecond : Decoder β) (decodeThird : Decoder γ) (make : α → β → γ → δ) :
    Shape (Three α β γ) δ where
  name := name.toList
  members :=
    [.at first (·.1) (fun value values => (some value, values.2)) decodeFirst,
      .at second (·.2.1) (fun value values => (values.1, some value, values.2.2)) decodeSecond,
      .at third (·.2.2) (fun value values => (values.1, values.2.1, some value)) decodeThird]
  start := (none, none, none)
  finish values := do
    let firstValue ← required first values.1
    let secondValue ← required second values.2.1
    let thirdValue ← required third values.2.2
    return make firstValue secondValue thirdValue

/-! ## (4) Models -/

/-- A set of characters. -/
def charSet : Decoder CharSet := fun tree =>
  (list (pair character) tree).map fun ranges =>
    ⟨(ranges.map fun (first, last) => (⟨first, last⟩ : CharRange)).toArray⟩

/-- An edge. -/
def edge : Decoder Edge :=
  record (shape₂ "NfaTransition" "chars" "target_state" charSet natural Edge.mk)

/-- A node of an automaton. -/
def node : Decoder Node :=
  record (shape₃ "NfaState" "state" "epsilon_transitions" "transitions"
    natural (list natural) (list edge) Node.mk)

/-- An automaton. -/
def automaton : Decoder Automaton :=
  record (shape₃ "Nfa" "states" "start_state" "end_state"
    (list node) natural natural Automaton.mk)

/-- The kinds of actions by name. -/
inductive ActionName where
  /-- No token. -/
  | skip
  /-- A token of a class. -/
  | token
  /-- A change of state. -/
  | enter
  /-- A move back. -/
  | rewind
  /-- A new line. -/
  | newLine
  deriving DecidableEq, Repr

/-- The kind of action of a name. -/
def actionName (name : Text) : Except Fault ActionName :=
  if name = "Skip".toList then .ok .skip
  else if name = "DeclareClass".toList then .ok .token
  else if name = "ChangeState".toList then .ok .enter
  else if name = "ComeBack".toList then .ok .rewind
  else if name = "NewLine".toList then .ok .newLine
  else .error (.unknownAction name)

/-- The action of a bare name. -/
def bareAction : ActionName → Except Fault Action
  | .skip => .ok .skip
  | .newLine => .ok .newLine
  | .token | .enter | .rewind => .error (.wrongType .bareName .argument)

/-- The action of a name with an argument. -/
def actionWith (name : ActionName) (argument : Tree) : Except Fault Action :=
  match name with
  | .skip => (nothing argument).map fun _ => .skip
  | .newLine => (nothing argument).map fun _ => .newLine
  | .token => (string argument).map .token
  | .enter => (string argument).map .enter
  | .rewind => (natural argument).map .rewind

/-- The end of an object of one member, of which further members may be left over. -/
def endOfObject (left : List (Quoted × Tree)) (ending : Ending) : Except Fault Unit :=
  match left, ending with
  | [], .closed => .ok ()
  | [], .atEnd => .error (.json .endInObject)
  | _, _ => .error (.json .noValue)

/-- **An action**: a name, or an object of one name and its argument. -/
def action : Decoder Action
  | .string (.ok name) => actionName name >>= bareAction
  | .string (.error fault) => .error (.json fault)
  | .brokenString strict _ => .error (.json strict)
  | .object [] ending =>
      match Tree.objectFault? ending with
      | some fault => .error (.json fault)
      | none => .error (.json .noValue)
  | .object ((key, argument) :: rest) ending => do
      let name ← keyText key
      let kind ← actionName name
      let action ← actionWith kind argument
      endOfObject rest ending
      return action
  | .absent fault => .error (.json fault)
  | .noColon fault => .error (.json fault)
  | _ => .error (.json .noValue)

/-- A rule. -/
def rule : Decoder Rule :=
  record (shape₃ "Rule" "automaton" "actions" "regex" automaton (list action) string Rule.mk)

/-- A state. -/
def state : Decoder State :=
  record (shape₂ "State" "name" "rules" string (list rule) State.mk)

/-- The states of a model and the name of its start state. -/
def parts : Decoder (List State × Text) :=
  record (shape₂ "SerializedModel" "states" "start_state" (list state) string Prod.mk)

/-- **Read an artifact.** -/
def read (source : Marked) : Except Fault Model := do
  let (tree, rest) := Json.read source
  let (states, start) ← parts tree
  let model ← (Model.restore states start).mapError .model
  if (Json.skipSpace rest).isEmpty then return model else .error (.json .trailingText)

end Lexer.Artifact
