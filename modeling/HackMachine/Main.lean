import HackMachine.Main.Interface

/-!
# The command line

The program carries out the session of its arguments against the real file system.  Everything is
decided by `Command.sessionOf`; here bytes are only moved.  No log is kept.
-/

namespace HackMachine
namespace Main

/-- More instructions than any run executes. -/
def fuel : Nat := 1 <<< 62

/-- The bytes of a string. -/
def bytesOf (s : String) : Text := s.toUTF8.toList

/-- The string with these bytes, if they are well-formed. -/
def stringOf? (t : Text) : Option String := String.fromUTF8? ⟨t.toArray⟩

/-- The system's code for a directory in the place of a file. -/
def directoryCode : UInt32 := 21

/-- The system's code for a name that is too long. -/
def longNameCode : UInt32 := 36

/-- The cause behind an error of the system. -/
def causeOf : IO.Error → FileCause
  | .inappropriateType _ code _ =>
    if code = directoryCode then .isDirectory else .notDirectory
  | .invalidArgument _ code _ => if code = longNameCode then .nameTooLong else .impossible
  | .permissionDenied .. => .denied
  | _ => .notFound

/-- Read a file.  A directory can be opened, but not read. -/
def readFile (path : Text) : IO (Except FileFault Text) := do
  match stringOf? path with
  | none => return .error (.opening path .notFound)
  | some name =>
    try
      return .ok (← IO.FS.readBinFile name).toList
    catch e =>
      match causeOf e with
      | .isDirectory => return .error (.reading path .isDirectory)
      | cause => return .error (.opening path cause)

/-- Write a file. -/
def writeFile (path content : Text) : IO (Option FileFault) := do
  match stringOf? path with
  | none => return some (.opening path .notFound)
  | some name =>
    try
      IO.FS.writeBinFile name ⟨content.toArray⟩
      return none
    catch e => return some (.opening path (causeOf e))

/-- The working directory. -/
def workingDirectory : IO (Except Path.DirectoryFault Text) := do
  try
    return .ok (bytesOf (← IO.currentDir).toString)
  catch e => return .error ⟨bytesOf e.toString⟩

/-- Print a text. -/
def print (stream : Stream) (content : Text) : IO (Option PrintFault) := do
  let target ← match stream with
    | .output => IO.getStdout
    | .errors => IO.getStderr
  try
    target.write ⟨content.toArray⟩
    target.flush
    return none
  catch e => return some ⟨bytesOf e.toString⟩

/-- Carry out a session: whether it succeeded, if it ends. -/
def perform : Session → IO (Option Bool)
  | .finish succeeded => return some succeeded
  | .unfinished => return none
  | .read path next => do perform (next (← readFile path))
  | .write path content next => do perform (next (← writeFile path content))
  | .print stream content next => do perform (next (← print stream content))
  | .log _ next => perform next

end Main
end HackMachine

open HackMachine in
/-- Run the command that the arguments form. -/
def main (args : List String) : IO UInt32 := do
  let surroundings : Surroundings :=
    { cwd := ← Main.workingDirectory, fuel := Main.fuel, display := Symbol.display }
  let session := Command.sessionOf surroundings (Command.parse (args.map Main.bytesOf))
  match ← Main.perform session with
  | some true => return 0
  | _ => return 1
