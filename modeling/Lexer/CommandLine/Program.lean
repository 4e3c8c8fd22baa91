import Lexer.CommandLine.Options
import Lexer.Generation
import Lexer.Graph

/-! # The program

What the program does with its command line.  It reads a specification from a file or from the
standard input, persists the model, and draws the state graph if it is asked to.  **The outcome** says
how it ended: its status is zero for success, one for a fault and two for a misuse. -/

namespace Lexer.CommandLine

open Files (Path Store)

/-- **Faults** that end the program. -/
inductive Fault where
  /-- The specification cannot be read. -/
  | unreadable (fault : Files.ReadFault)
  /-- The specification is not encoded in UTF-8. -/
  | notText
  /-- No lexer can be generated from the specification. -/
  | generation (fault : Generation.Fault)
  /-- The file of the drawing cannot be opened. -/
  | drawing (fault : Files.Fault)
  deriving DecidableEq, Repr

/-- The message about a fault. -/
def Fault.message : Fault → Text
  | .unreadable (.opening fault) => fault.wording
  | .unreadable (.reading fault) => fault.wording
  | .notText => "stream did not contain valid UTF-8".toList
  | .generation fault => fault.message
  | .drawing fault => fault.wording

/-- **The outcome** of the program. -/
inductive Outcome where
  /-- Everything asked for is done. -/
  | done
  /-- A question is answered. -/
  | answered (text : Text)
  /-- A fault ended the program. -/
  | failed (fault : Fault)
  /-- The command line makes no sense. -/
  | misused (misuse : Misuse)
  deriving DecidableEq, Repr

namespace Outcome

/-- The status that the program exits with. -/
def status : Outcome → Nat
  | .done | .answered _ => 0
  | .failed _ => 1
  | .misused _ => 2

/-- The text that the program prints. -/
def output : Outcome → Text
  | .answered text => text
  | _ => []

/-- What the program complains about. -/
def complaint : Outcome → Text
  | .failed fault => fault.message
  | .misused misuse => misuse.message
  | _ => []

end Outcome

/-- The name of the program and its version. -/
def versionText : Text :=
  "lexgen 0.1.0\n".toList

/-- The explanation of the options. -/
def helpText : Text :=
  ("Compiles a lexical specification into a persisted lexer model\n" ++
    "\n" ++
    "Usage: lexgen [OPTIONS]\n" ++
    "\n" ++
    "Options:\n" ++
    "  -i, --input <INPUT>    Specification file (default: stdin)\n" ++
    "  -o, --output <OUTPUT>  Where to persist the lexer model " ++
    "[default: analizator/lexerStates.ser]\n" ++
    "      --dot <DOT>        Also render the state graph in graphviz dot format\n" ++
    "  -h, --help             Print help\n" ++
    "  -V, --version          Print version\n").toList

/-- The label of a drawing. -/
def drawingLabel : Text :=
  "lexer states".toList

/-- The text of the drawing of a model. -/
def drawingOf (model : Model) : Text :=
  (Graph.ofModel model drawingLabel).render

variable {m : Type → Type} [Monad m] [Store m]

/-- The bytes of the specification: those of a file, or those of the standard input. -/
def readInput (input : Option Path) (standard : m (List UInt8)) :
    ExceptT Fault m (List UInt8) :=
  match input with
  | some path => (Store.read path).adapt Fault.unreadable
  | none => ExceptT.lift standard

/-- Draw a model, if there is a place for it. -/
def draw (model : Model) : Option Path → ExceptT Fault m Unit
  | some path => (Store.emit path (drawingOf model).bytes).adapt Fault.drawing
  | none => return ()

/-- **Carry out a request.** -/
def carryOut (request : Request) (standard : m (List UInt8)) : ExceptT Fault m Unit := do
  let bytes ← readInput request.input standard
  match (Marked.ofBytes bytes).toText? with
  | none => throw .notText
  | some text => do
      let model ← (Generation.generate text request.output).adapt Fault.generation
      draw model request.drawing

/-- **Run the program** with the words of its command line. -/
def run (words : List Text) (standard : m (List UInt8)) : m Outcome :=
  match readWords words with
  | .error misuse => return .misused misuse
  | .ok .version => return .answered versionText
  | .ok .help => return .answered helpText
  | .ok (.generate request) => do
      match ← (carryOut request standard).run with
      | .ok () => return .done
      | .error fault => return .failed fault

end Lexer.CommandLine
