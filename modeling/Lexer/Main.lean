import Lexer.CommandLine.Program

/-! # The program on a machine

The files of the machine as a store, and the program on them. -/

namespace Lexer

open Files (Path Store)

/-- The fault that an error of the machine means. -/
def Files.Fault.ofMachine : IO.Error → Files.Fault
  | .noFileOrDirectory .. => .notFound
  | .alreadyExists .. => .alreadyThere
  | .resourceBusy .. => .busy
  | .inappropriateType _ 20 _ => .notDirectory
  | .inappropriateType _ 21 _ => .isDirectory
  | .invalidArgument _ 36 _ => .tooLong
  | error => .other error.toString.toList

/-- An operation of the machine on some paths, none of which may hold the character zero. -/
def Files.onMachine {α : Type} (paths : List Path) (operation : IO α) :
    ExceptT Files.Fault IO α :=
  ExceptT.mk do
    if paths.any fun path => path.text.contains '\x00' then return .error .zeroInPath
    try
      return .ok (← operation)
    catch error =>
      return .error (.ofMachine error)

/-- The name of a path on the machine. -/
def Files.Path.machineName (path : Path) : String :=
  path.text.toString

/-- The bytes of a file of the machine. -/
def Files.readOnMachine (path : Path) : ExceptT Files.ReadFault IO (List UInt8) := do
  let handle ← (Files.onMachine [path] (IO.FS.Handle.mk path.machineName .read)).adapt
    Files.ReadFault.opening
  let bytes ← (Files.onMachine [path] handle.readBinToEnd).adapt Files.ReadFault.reading
  return bytes.toList

/-- Make or empty a file of the machine, and write its content. -/
def Files.overwriteOnMachine (path : Path) (content : List UInt8) :
    ExceptT Files.WriteFault IO Unit := do
  let handle ← (Files.onMachine [path] (IO.FS.Handle.mk path.machineName .write)).adapt
    Files.WriteFault.opening
  (Files.onMachine [path] do
    handle.write content.toByteArray
    handle.flush).adapt Files.WriteFault.writing

/-- Whether a path leads to a directory of the machine. -/
def Files.isDirectoryOnMachine (path : Path) : IO Bool := do
  try
    (← IO.FS.realPath path.machineName).isDir
  catch _ =>
    return false

/-- The files of the machine are a store. -/
instance : Store IO where
  read := Files.readOnMachine
  isDirectory := Files.isDirectoryOnMachine
  makeDirectory path := Files.onMachine [path] (IO.FS.createDir path.machineName)
  overwrite := Files.overwriteOnMachine
  rename old new :=
    Files.onMachine [old, new] (IO.FS.rename old.machineName new.machineName)
  remove path := Files.onMachine [path] (IO.FS.removeFile path.machineName)

/-- The rest of a stream, behind some bytes of it. -/
partial def restOf (stream : IO.FS.Stream) (earlier : ByteArray) : IO ByteArray := do
  let more ← stream.read 65536
  if more.isEmpty then return earlier else restOf stream (earlier ++ more)

/-- The bytes of the standard input. -/
def standardInput : IO (List UInt8) := do
  return (← restOf (← IO.getStdin) .empty).toList

end Lexer

/-- Run the program with the words of the command line. -/
def main (arguments : List String) : IO UInt32 := do
  let outcome ← Lexer.CommandLine.run (arguments.map String.toList) Lexer.standardInput
  IO.print outcome.output.toString
  unless outcome.complaint.isEmpty do
    IO.eprintln ("error: " ++ outcome.complaint.toString)
  return UInt32.ofNat outcome.status
