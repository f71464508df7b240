import HackMachine.Text.Basic

/-!
# Sessions

A command reads a file, computes, prints, perhaps writes a file, and tells the log what it is doing.
A *session* is what such a command does, as a tree: at each request that can be refused it branches
over the possible answers.  The command itself is then a function without effects.

A `Host` answers the requests.  It may be a real machine, or a `FileTree` with a record of what has
been printed.
-/

namespace HackMachine

/-! ## Requests and their answers -/

/-- Why the file system refuses a request. -/
inductive FileCause where
  | notFound
  | notDirectory
  | isDirectory
  | nameTooLong
  /-- The path is not one that any file could have. -/
  | impossible
  | denied
  deriving DecidableEq

/-- The reason in words. -/
def FileCause.message : FileCause → Text
  | .notFound => Text.ascii "no such file or directory"
  | .notDirectory => Text.ascii "not a directory"
  | .isDirectory => Text.ascii "is a directory"
  | .nameTooLong => Text.ascii "file name too long"
  | .impossible => Text.ascii "invalid argument"
  | .denied => Text.ascii "permission denied"

/-- A refused request.  A file is opened before it is read, and either can be refused. -/
inductive FileFault where
  | opening (path : Text) (cause : FileCause)
  | reading (path : Text) (cause : FileCause)
  deriving DecidableEq

/-- What is reported about a refused request. -/
def FileFault.message : FileFault → Text
  | .opening path cause => Text.ascii "open " ++ path ++ Text.ascii ": " ++ cause.message
  | .reading path cause => Text.ascii "read " ++ path ++ Text.ascii ": " ++ cause.message

/-- Where a command prints. -/
inductive Stream where
  | output
  | errors
  deriving DecidableEq

/-- A text that could not be printed, at least not all of it.  The stream says why in its own
words. -/
structure PrintFault where
  message : Text
  deriving DecidableEq

/-- What a command tells the log.  What is kept of it, and where, depends on how the log has been set
up. -/
inductive LogEvent where
  /-- A source file is about to be opened. -/
  | opening (path : Text)
  /-- A source is about to be assembled. -/
  | assembling (source : Text)
  /-- A listing of so many words has been disassembled. -/
  | disassembled (count : Nat) (path : Text)
  deriving DecidableEq

/-! ## Sessions -/

/-- What a command does. -/
inductive Session where
  /-- The command ends. -/
  | finish (succeeded : Bool)
  /-- The command is still computing when its fuel is used up. -/
  | unfinished
  /-- Read the whole content of a file. -/
  | read (path : Text) (next : Except FileFault Text → Session)
  /-- Replace the content of a file, creating the file if there is none. -/
  | write (path content : Text) (next : Option FileFault → Session)
  /-- Print a text. -/
  | print (stream : Stream) (content : Text) (next : Option PrintFault → Session)
  /-- Tell the log. -/
  | log (event : LogEvent) (next : Session)

/-- Print texts one after the other, whether they are refused or not. -/
def Session.printAll (stream : Stream) : List Text → Session → Session
  | [], next => next
  | content :: rest, next => .print stream content fun _ => printAll stream rest next

/-! ## Hosts -/

/-- The files and what has been printed, at some moment of a session. -/
structure World (Files Screen : Type) where
  files : Files
  screen : Screen

/-- What answers the requests of a session. -/
structure Host (Files Screen : Type) where
  /-- Read a file.  This has no effect. -/
  read : Files → Text → Except FileFault Text
  /-- Write a file.  A write that is refused has no effect. -/
  write : Files → Text → Text → Except FileFault Files
  /-- Print a text.  A print that is refused may have had some effect. -/
  print : Stream → Screen → Text → Screen × Option PrintFault
  /-- Take notice of something.  The log may be kept in files or be printed. -/
  log : LogEvent → World Files Screen → World Files Screen
  /-- Complete the log at the end of a session. -/
  flush : World Files Screen → World Files Screen

/-- Carry out a session: the world afterwards and, if the session ends, whether it succeeded. -/
def Host.perform {Files Screen : Type} (host : Host Files Screen) :
    World Files Screen → Session → World Files Screen × Option Bool
  | world, .finish succeeded => (host.flush world, some succeeded)
  | world, .unfinished => (world, none)
  | world, .read path next => host.perform world (next (host.read world.files path))
  | world, .write path content next =>
    match host.write world.files path content with
    | .error fault => host.perform world (next (some fault))
    | .ok files => host.perform { world with files := files } (next none)
  | world, .print stream content next =>
    match host.print stream world.screen content with
    | (screen, fault) => host.perform { world with screen := screen } (next fault)
  | world, .log event next => host.perform (host.log event world) next

end HackMachine
