import Lexer.Artifact.Decoding
import Lexer.Artifact.Encoding
import Lexer.Files.Store

/-! # Persisting models

A model is persisted as a file that holds its artifact, and loaded from one.  Every fault says which
path it is about. -/

namespace Lexer.Artifact

open Files (Path Store)

/-- **Causes** why a model cannot be persisted or loaded. -/
inductive StoreFault.Cause where
  /-- A file operation is refused. -/
  | file (fault : Files.Fault)
  /-- The content of an open file cannot be read. -/
  | content (fault : Files.Fault)
  /-- The content of a file is no artifact of a model. -/
  | artifact (fault : Fault)
  deriving DecidableEq, Repr

/-- **A fault** of persisting or loading a model. -/
structure StoreFault where
  /-- The path of the artifact, as it was given. -/
  path : Path
  /-- What is wrong. -/
  cause : StoreFault.Cause
  deriving DecidableEq, Repr

/-- The wording of a cause. -/
def StoreFault.Cause.wording : StoreFault.Cause → Text
  | .file fault => fault.wording
  | .content fault => fault.wording
  | .artifact fault => fault.message

/-- The message about a fault. -/
def StoreFault.message (fault : StoreFault) : Text :=
  "Failed to persist lexer model at ".toList ++ fault.path.text ++ ": ".toList ++
    fault.cause.wording

/-- The cause why a file cannot be read. -/
def StoreFault.Cause.ofRead : Files.ReadFault → StoreFault.Cause
  | .opening fault => .file fault
  | .reading fault => .content fault

variable {m : Type → Type} [Monad m] [Store m]

/-- **Persist a model** at a path. -/
def persist (model : Model) (path : Path) : ExceptT StoreFault m Unit :=
  (Store.replace path (write model).bytes).adapt fun fault => ⟨path, .file fault⟩

/-- **Load a model** from a path. -/
def load (path : Path) : ExceptT StoreFault m Model := do
  let bytes ← (Store.read path).adapt fun fault => ⟨path, .ofRead fault⟩
  match read (Marked.ofBytes bytes) with
  | .ok model => return model
  | .error fault => throw ⟨path, .artifact fault⟩

end Lexer.Artifact
