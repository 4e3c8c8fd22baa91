import Lexer.Text.Basic

/-! # Paths

A path is a text whose pieces are set apart by slashes.  **A piece** that is empty, or a dot that is
not the first piece, leads nowhere and is passed over when the last piece is looked for.  **The
enclosing paths** of a path lead to the directories that hold it; each is the text of the path up to
the end of an earlier piece. -/

namespace Lexer.Files

/-- **A path**, as it was given. -/
structure Path where
  /-- The text of the path. -/
  text : Text
  deriving DecidableEq, Repr

namespace Path

/-- The name of the directory itself. -/
def here : Text := ['.']

/-- The name of the directory above. -/
def above : Text := ['.', '.']

/-! ## (1) Pieces -/

/-- **The pieces** of a text between its slashes, of which there is always one. -/
def split : Text → List Text
  | [] => [[]]
  | c :: rest =>
      if c = '/' then [] :: split rest
      else
        match split rest with
        | piece :: pieces => (c :: piece) :: pieces
        | [] => [[c]]

/-- Some pieces, the last of which comes first, with slashes between them.  An empty piece alone is
the root. -/
def join : List Text → Text
  | [] => []
  | [[]] => ['/']
  | [piece] => piece
  | [piece, []] => '/' :: piece
  | piece :: outer => join outer ++ '/' :: piece

/-- A piece that leads nowhere, unless it is the first one. -/
def isSilent (piece : Text) : Bool :=
  piece.isEmpty || piece = here

/-- Some pieces, the last of which comes first, without silent ones in front. -/
def settle : List Text → List Text
  | [] => []
  | [piece] => [piece]
  | piece :: outer => if isSilent piece then settle outer else piece :: outer

/-- The paths up to each piece that is not silent, the longest first. -/
def upTo : List Text → List Path
  | [] => []
  | [piece] => [⟨join [piece]⟩]
  | piece :: outer => if isSilent piece then upTo outer else ⟨join (piece :: outer)⟩ :: upTo outer

/-! ## (2) Parts of a path -/

/-- The pieces of a path, the last one first. -/
def inward (path : Path) : List Text :=
  (split path.text).reverse

/-- **The enclosing paths**, the innermost first. -/
def enclosing (path : Path) : List Path :=
  (upTo path.inward).tail

/-- The text of the path that encloses a path; the empty text if there is none. -/
def parentText (path : Path) : Text :=
  match path.enclosing with
  | parent :: _ => parent.text
  | [] => []

/-- **The name** that a path ends in, if its last piece is one. -/
def name? (path : Path) : Option Text :=
  match settle path.inward with
  | piece :: _ =>
      if piece.isEmpty || piece = here || piece = above then none else some piece
  | [] => none

/-- A name behind a text that leads to a directory. -/
def extend (directory name : Text) : Path :=
  if directory.isEmpty then ⟨name⟩
  else if directory.getLast? = some '/' then ⟨directory ++ name⟩
  else ⟨directory ++ '/' :: name⟩

/-- What the name of a temporary file ends in. -/
def temporaryEnding : Text := ".tmp".toList

/-- **The temporary sibling** of a path: its name gets an ending.  A path that ends in no name gets
the ending alone as a name behind it. -/
def temporary (path : Path) : Path :=
  match path.name? with
  | some name => extend path.parentText (name ++ temporaryEnding)
  | none => extend path.text temporaryEnding

/-! ## (3) Steps -/

/-- **The steps** that a path takes: its pieces that are not empty. -/
def steps (path : Path) : List Text :=
  (split path.text).filter fun piece => !piece.isEmpty

/-- The path starts at the root. -/
def isAbsolute (path : Path) : Bool :=
  path.text.head? = some '/'

/-- The path ends in a slash, and so has to lead to a directory. -/
def endsInSlash (path : Path) : Bool :=
  path.text.getLast? = some '/'

end Path

end Lexer.Files
