import Lexer.Files.Tree

/-! # File stores

**A store** is what the operations on files act on: a file tree, or the files of the machine.  What
is said of an operation on a tree describes the operation on any store.  A file is opened before it
is written; to write it as a whole and to **emit** what goes into it differ in what is made of a
fault in between.  From the operations of a store follow two more: **making a directory together with
those that enclose it**, and **replacing a file**, all or nothing: the new content is written to a
temporary sibling, which is renamed to the file when it is complete. -/

namespace Lexer.Files

/-- **Faults** of reading a file. -/
inductive ReadFault where
  /-- The file cannot be opened. -/
  | opening (fault : Fault)
  /-- The file is open, but its content cannot be read. -/
  | reading (fault : Fault)
  deriving DecidableEq, Repr

/-- **Faults** of writing a file. -/
inductive WriteFault where
  /-- The file cannot be opened. -/
  | opening (fault : Fault)
  /-- The file is open, but not all of the content can be written. -/
  | writing (fault : Fault)
  deriving DecidableEq, Repr

/-- What is wrong, wherever it went wrong. -/
def WriteFault.cause : WriteFault → Fault
  | .opening fault => fault
  | .writing fault => fault

/-- Whether a file was opened, whatever became of its content. -/
def WriteFault.opened : Except WriteFault Unit → Except Fault Unit
  | .error (.opening fault) => .error fault
  | _ => .ok ()

/-- **A store** of files, with operations in a monad. -/
class Store (m : Type → Type) where
  /-- The bytes of a file. -/
  read : Path → ExceptT ReadFault m (List UInt8)
  /-- Whether a path leads to a directory. -/
  isDirectory : Path → m Bool
  /-- Make a directory where there is nothing. -/
  makeDirectory : Path → ExceptT Fault m Unit
  /-- Open a file, which is made or emptied, and write its content. -/
  overwrite : Path → List UInt8 → ExceptT WriteFault m Unit
  /-- Rename a file, which replaces a file at the new path. -/
  rename : Path → Path → ExceptT Fault m Unit
  /-- Remove a file. -/
  remove : Path → ExceptT Fault m Unit

namespace Tree

/-- The bytes of the file that a path leads to.  A directory can be opened, but not read. -/
def read (tree : Tree) (path : Path) : Except ReadFault (List UInt8) :=
  match tree.openEntry path with
  | .ok (.file content) => .ok content
  | .ok .directory => .error (.reading .isDirectory)
  | .error fault => .error (.opening fault)

/-- **A change** of the tree, which stays as it was if the change is refused. -/
def change (operation : Tree → Except Fault Tree) : ExceptT Fault (StateM Tree) Unit :=
  ExceptT.mk fun tree =>
    match operation tree with
    | .ok changed => (.ok (), changed)
    | .error fault => (.error fault, tree)

end Tree

/-- A tree is a store. -/
instance : Store (StateM Tree) where
  read path := ExceptT.mk fun tree => (tree.read path, tree)
  isDirectory path := fun tree => (tree.isDirectory path, tree)
  makeDirectory path := Tree.change (·.makeDirectory path)
  overwrite path content := (Tree.change (·.write path content)).adapt .opening
  rename old new := Tree.change (·.rename old new)
  remove path := Tree.change (·.remove path)

namespace Store

variable {m : Type → Type} [Monad m] [Store m]

/-- **Write a file**, which is made or overwritten. -/
def write (path : Path) (content : List UInt8) : ExceptT Fault m Unit :=
  (overwrite path content).adapt WriteFault.cause

/-- **Emit a file**: only that it cannot be opened is a fault, and whether all of the content arrives
is not looked at. -/
def emit (path : Path) (content : List UInt8) : ExceptT Fault m Unit :=
  ExceptT.mk (WriteFault.opened <$> (overwrite path content).run)

/-- Make a directory, unless there is one already. -/
def ensureDirectory (path : Path) : ExceptT Fault m Unit :=
  tryCatch (makeDirectory path) fun fault => do
    if ← (isDirectory path : m Bool) then return () else throw fault

/-- **Make directories**: the first path, and, as far as they are missing, the ones that enclose it,
which follow from the innermost to the outermost. -/
def makeDirectories : List Path → ExceptT Fault m Unit
  | [] => return ()
  | path :: enclosing =>
      tryCatch (makeDirectory path) fun fault => do
        if fault = .notFound then
          makeDirectories enclosing
          ensureDirectory path
        else if ← (isDirectory path : m Bool) then return ()
        else throw fault

/-- Write the new content of a file to its temporary sibling and rename that to the file. -/
def replaceThrough (path : Path) (content : List UInt8) : ExceptT Fault m Unit := do
  makeDirectories path.enclosing
  write path.temporary content
  rename path.temporary path

/-- **Replace a file**, all or nothing.  When a step fails, the temporary file is removed; that this
may fail, too, is not looked at. -/
def replace (path : Path) (content : List UInt8) : ExceptT Fault m Unit :=
  tryCatch (replaceThrough path content) fun fault => do
    tryCatch (remove path.temporary) fun _ => return ()
    throw fault

end Store

end Lexer.Files
