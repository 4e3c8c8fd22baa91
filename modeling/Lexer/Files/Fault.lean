import Lexer.Text.Decimal

/-! # Faults of file operations

Why the file system refuses an operation.  Most faults have a number, which their wording shows. -/

namespace Lexer.Files

/-- **Faults** of file operations. -/
inductive Fault where
  /-- There is nothing at a path. -/
  | notFound
  /-- There is something at a path already. -/
  | alreadyThere
  /-- A directory is in use. -/
  | busy
  /-- A directory is needed. -/
  | notDirectory
  /-- A directory is in the way. -/
  | isDirectory
  /-- A name or a path is too long. -/
  | tooLong
  /-- A path holds the character zero. -/
  | zeroInPath
  /-- Any other fault, in the words of the file system. -/
  | other (wording : Text)
  deriving DecidableEq, Repr

namespace Fault

/-- A wording with its number. -/
def numbered (wording : String) (number : Nat) : Text :=
  wording.toList ++ " (os error ".toList ++ Decimal.write number ++ [')']

/-- The wording of a fault. -/
def wording : Fault → Text
  | .notFound => numbered "No such file or directory" 2
  | .alreadyThere => numbered "File exists" 17
  | .busy => numbered "Device or resource busy" 16
  | .notDirectory => numbered "Not a directory" 20
  | .isDirectory => numbered "Is a directory" 21
  | .tooLong => numbered "File name too long" 36
  | .zeroInPath => "file name contained an unexpected NUL byte".toList
  | .other wording => wording

end Fault

end Lexer.Files
