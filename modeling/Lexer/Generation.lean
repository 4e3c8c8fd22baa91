import Lexer.Artifact.Persistence
import Lexer.Model.Builder
import Lexer.Specification.Reading

/-! # Generating lexers

From the text of a specification to the persisted model: the text is read, the specification is
compiled, and only when both succeeded a file is touched. -/

namespace Lexer

/-- **Faults** of generating a lexer. -/
inductive Generation.Fault where
  /-- The text is no specification. -/
  | specification (fault : Specification.Fault)
  /-- The specification does not compile. -/
  | compilation (fault : Model.CompileFault)
  /-- The model cannot be persisted. -/
  | store (fault : Artifact.StoreFault)
  deriving DecidableEq, Repr

namespace Model

/-- The message about a fault. -/
def CompileFault.message : CompileFault → Text
  | .rule fault => fault.message
  | .model fault => fault.message

end Model

namespace Generation

open Files (Path Store)

/-- The message about a fault. -/
def Fault.message : Fault → Text
  | .specification fault => fault.message
  | .compilation fault => fault.message
  | .store fault => fault.message

/-- **The model** that the text of a specification describes. -/
def modelOf (text : Text) : Except Fault Model :=
  match Specification.read text with
  | .error fault => .error (.specification fault)
  | .ok specification => (Model.compile specification).mapError .compilation

/-- **Generate a lexer**: persist the model that a text describes. -/
def generate {m : Type → Type} [Monad m] [Store m] (text : Text) (path : Path) :
    ExceptT Fault m Model :=
  match modelOf text with
  | .error fault => throw fault
  | .ok model => do
      (Artifact.persist model path).adapt Fault.store
      return model

end Generation

end Lexer
