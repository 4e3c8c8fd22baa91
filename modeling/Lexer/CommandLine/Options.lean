import Lexer.Files.Path

/-! # Command-line options

Three options take a path: the specification to read, the place of the artifact, and the place of a
drawing of the state graph.  A path stands in the word behind its option, or in the same word, and is
never empty.  **Words are taken from left to right**: the first misuse, or the first question about
the version or for help, settles what the command line says. -/

namespace Lexer.CommandLine

open Files (Path)

/-- **An option** that takes a path. -/
inductive Place where
  /-- The specification to read. -/
  | input
  /-- The artifact to write. -/
  | output
  /-- The drawing to write. -/
  | drawing
  deriving DecidableEq, Repr

/-- **A request**: where to read and to write. -/
structure Request where
  /-- The specification; the standard input if there is none. -/
  input : Option Path
  /-- The artifact. -/
  output : Path
  /-- The drawing, if one is wanted. -/
  drawing : Option Path
  deriving DecidableEq, Repr

/-- **What a command line says.** -/
inductive Command where
  /-- Generate a lexer. -/
  | generate (request : Request)
  /-- Tell the version. -/
  | version
  /-- Explain the options. -/
  | help
  deriving DecidableEq, Repr

/-- **Misuses** of the command line. -/
inductive Misuse where
  /-- A word has no meaning where it stands. -/
  | unexpected (word : Text)
  /-- An option stands without a path. -/
  | missingPath (place : Place)
  /-- An option is repeated. -/
  | repeated (place : Place)
  deriving DecidableEq, Repr

/-- The name of an option. -/
def Place.name : Place → Text
  | .input => "--input".toList
  | .output => "--output".toList
  | .drawing => "--dot".toList

/-- The message about a misuse. -/
def Misuse.message : Misuse → Text
  | .unexpected word => "unexpected argument '".toList ++ word ++ ['\x27']
  | .missingPath place => "a path is required for ".toList ++ place.name
  | .repeated place => place.name ++ " cannot be used multiple times".toList

/-! ## (1) Words -/

/-- **A word** of the command line. -/
inductive Word where
  /-- An option whose path stands in the next word. -/
  | option (place : Place)
  /-- An option together with its path. -/
  | attached (place : Place) (path : Text)
  /-- The question for the version. -/
  | version
  /-- The question for help. -/
  | help
  /-- The end of the options. -/
  | separator
  /-- Anything else. -/
  | plain
  deriving DecidableEq, Repr

/-- The option with a long name. -/
def longPlace? (name : Text) : Option Place :=
  if name = "input".toList then some .input
  else if name = "output".toList then some .output
  else if name = "dot".toList then some .drawing
  else none

/-- A word behind two dashes.  Its path, if it has one, follows an equals sign. -/
def longWord (word : Text) : Word :=
  match Text.cut? '=' word with
  | some (name, path) =>
      match longPlace? name with
      | some place => .attached place path
      | none => .plain
  | none =>
      match longPlace? word with
      | some place => .option place
      | none =>
          if word = "version".toList then .version
          else if word = "help".toList then .help
          else .plain

/-- What follows the letter of an option: nothing, or a path, in front of which an equals sign may
stand. -/
def shortWord (place : Place) : Text → Word
  | [] => .option place
  | '=' :: path => .attached place path
  | path => .attached place path

/-- **Read a word.** -/
def readWord : Text → Word
  | ['-', '-'] => .separator
  | '-' :: '-' :: word => longWord word
  | '-' :: 'i' :: rest => shortWord .input rest
  | '-' :: 'o' :: rest => shortWord .output rest
  | '-' :: 'V' :: _ => .version
  | '-' :: 'h' :: _ => .help
  | _ => .plain

/-- A word that may be the path of an option in front of it: it is a dash alone, or starts with
none. -/
def isPath : Text → Bool
  | '-' :: _ :: _ => false
  | _ => true

/-! ## (2) Command lines -/

/-- **The paths** that options gave so far. -/
structure Choices where
  /-- The path of the specification. -/
  input : Option Path
  /-- The path of the artifact. -/
  output : Option Path
  /-- The path of the drawing. -/
  drawing : Option Path
  deriving DecidableEq, Repr

namespace Choices

/-- No option was given. -/
def none : Choices :=
  ⟨.none, .none, .none⟩

/-- The path that an option gave. -/
def path? (choices : Choices) : Place → Option Path
  | .input => choices.input
  | .output => choices.output
  | .drawing => choices.drawing

/-- The choices with the path of an option. -/
def set (choices : Choices) (path : Path) : Place → Choices
  | .input => { choices with input := some path }
  | .output => { choices with output := some path }
  | .drawing => { choices with drawing := some path }

/-- **Choose a path**, which must not be empty nor have been chosen before. -/
def choose (choices : Choices) (place : Place) (path : Text) : Except Misuse Choices :=
  if path.isEmpty then .error (.missingPath place)
  else if (choices.path? place).isSome then .error (.repeated place)
  else .ok (choices.set ⟨path⟩ place)

/-- The place of the artifact if none is chosen. -/
def defaultOutput : Path :=
  ⟨"analizator/lexerStates.ser".toList⟩

/-- The request that the choices make. -/
def request (choices : Choices) : Request :=
  ⟨choices.input, choices.output.getD defaultOutput, choices.drawing⟩

end Choices

/-- Take some words after others that made some choices. -/
def takeWords (choices : Choices) : List Text → Except Misuse Command
  | [] => .ok (.generate choices.request)
  | word :: rest =>
      match readWord word, rest with
      | .plain, _ => .error (.unexpected word)
      | .version, _ => .ok .version
      | .help, _ => .ok .help
      | .attached place path, rest =>
          choices.choose place path >>= fun choices => takeWords choices rest
      | .option place, path :: rest =>
          if isPath path then choices.choose place path >>= fun choices => takeWords choices rest
          else .error (.missingPath place)
      | .option place, [] => .error (.missingPath place)
      | .separator, [] => .ok (.generate choices.request)
      | .separator, next :: _ => .error (.unexpected next)

/-- **Read a command line.** -/
def readWords (words : List Text) : Except Misuse Command :=
  takeWords .none words

end Lexer.CommandLine
