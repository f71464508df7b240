import HackMachine.Files.Path
import HackMachine.Files.Session

/-!
# A tree of files

A file tree is a directory with the files in it and below it.  A directory exists if there is a file
below it; the top of the tree always exists.  Paths are followed part by part, the way a file system
does: every part before the last must be a directory, also one that a later `..` leaves again, and a
part with more than 255 bytes or a path with more than 4095 is refused.  A zero byte is the end of a
path, so a path that contains one is refused before any part of it is looked up.

The tree knows nothing of what lies outside it: outside, there are directories above the top, and no
files.

As a host (`FileTree.host`) a tree keeps no log, and whatever is printed is added to a record.  What
it says in the end is the `Report` of a session.
-/

namespace HackMachine

/-- What a command has printed when it ends, and whether it succeeded. -/
structure Report where
  output : Text
  errors : Text
  succeeded : Bool
  deriving DecidableEq

/-- What has been printed on a stream, given everything that has been printed, the last first. -/
def Stream.printed (stream : Stream) (record : List (Stream × Text)) : Text :=
  (record.reverse.filter (·.1 = stream)).flatMap (·.2)

/-- The files below a directory. -/
structure FileTree where
  /-- The absolute path of the top directory. -/
  top : Text
  /-- The files, each with the parts of its path from the top. -/
  files : List (List Text × Text)

namespace FileTree

/-- Where a path leads. -/
inductive Place where
  /-- To the place with these parts below the top. -/
  | inside (parts : List Text)
  /-- To a directory above the top. -/
  | above
  deriving DecidableEq

/-- The content of the file at some place below the top. -/
def content? (tree : FileTree) (parts : List Text) : Option Text := tree.files.lookup parts

/-- Whether there is a directory at a place: the top is one, and every place with a file below it.
-/
def isDirectory (tree : FileTree) : Place → Bool
  | .above => true
  | .inside parts =>
    parts.isEmpty || tree.files.any fun file => parts.isPrefixOf file.1 && parts != file.1

/-- Whether there is a file at a place. -/
def isFile (tree : FileTree) : Place → Bool
  | .above => false
  | .inside parts => (tree.content? parts).isSome

/-- Go from a directory to one of its entries, which need not exist. -/
def enter (place : Place) (part : Text) : Except FileCause Place :=
  if part = Path.here then .ok place
  else if part = Path.up then
    match place with
    | .inside [] => .ok .above
    | .inside parts => .ok (.inside parts.dropLast)
    | .above => .ok .above
  else if 255 < part.length then .error .nameTooLong
  else
    match place with
    | .inside parts => .ok (.inside (parts ++ [part]))
    | .above => .error .notFound

/-- Follow the parts of a path.  Every part is looked up in a directory. -/
def follow (tree : FileTree) : Place → List Text → Except FileCause Place
  | place, [] => .ok place
  | place, part :: rest =>
    if tree.isDirectory place then
      match enter place part with
      | .error cause => .error cause
      | .ok next => follow tree next rest
    else .error (if tree.isFile place then .notDirectory else .notFound)

/-- The parts of a path; empty parts mean nothing. -/
def partsOf (path : Text) : List Text := (path.splitOn Path.separator).filter (!·.isEmpty)

/-- Where to start following a path, and the parts to follow.  An absolute path starts above the
top, unless it passes through the top. -/
def approach (tree : FileTree) (path : Text) : Place × List Text :=
  if path = tree.top then (.inside [], [])
  else if (tree.top ++ [Path.separator]).isPrefixOf path then
    (.inside [], partsOf (path.drop tree.top.length))
  else if Path.isAbsolute path then (.above, partsOf path)
  else (.inside [], partsOf path)

/-- Whether a path ends in a slash, and so can only be a directory. -/
def asksDirectory (path : Text) : Bool := path.getLast? == some Path.separator

/-- The byte that no path contains. -/
def pathEnd : UInt8 := 0

/-- Where a path leads.  The last part need not exist. -/
def locate (tree : FileTree) (path : Text) : Except FileCause Place :=
  if path.contains pathEnd then .error .impossible
  else if path.isEmpty then .error .notFound
  else if 4095 < path.length then .error .nameTooLong
  else tree.follow (tree.approach path).1 (tree.approach path).2

/-- Read a file.  A directory can be opened, but not read. -/
def read (tree : FileTree) (path : Text) : Except FileFault Text :=
  match tree.locate path with
  | .error cause => .error (.opening path cause)
  | .ok place =>
    if tree.isDirectory place then .error (.reading path .isDirectory)
    else
      match place with
      | .above => .error (.reading path .isDirectory)
      | .inside parts =>
        match tree.content? parts with
        | none => .error (.opening path .notFound)
        | some content =>
          if asksDirectory path then .error (.opening path .notDirectory) else .ok content

/-- The tree with a file added or replaced. -/
def put (tree : FileTree) (parts : List Text) (content : Text) : FileTree :=
  if (tree.content? parts).isSome then
    { tree with
      files := tree.files.map fun file => if file.1 = parts then (parts, content) else file }
  else { tree with files := tree.files ++ [(parts, content)] }

/-- Write a file. -/
def write (tree : FileTree) (path content : Text) : Except FileFault FileTree :=
  match tree.locate path with
  | .error cause => .error (.opening path cause)
  | .ok place =>
    if asksDirectory path || tree.isDirectory place then .error (.opening path .isDirectory)
    else
      match place with
      | .above => .error (.opening path .isDirectory)
      | .inside parts => .ok (tree.put parts content)

/-- Trees with a record of what has been printed, the last first. -/
def host : Host FileTree (List (Stream × Text)) where
  read := read
  write := write
  print stream record content := ((stream, content) :: record, none)
  log _ world := world
  flush world := world

/-- Carry out a session: the tree afterwards, and the report if the session ends. -/
def perform (tree : FileTree) (session : Session) : FileTree × Option Report :=
  match host.perform ⟨tree, []⟩ session with
  | (world, succeeded) =>
    (world.files, succeeded.map fun succeeded =>
      ⟨Stream.output.printed world.screen, Stream.errors.printed world.screen, succeeded⟩)

/-- The tree with the given files, each under its path from the top. -/
def ofFiles (top : Text) (files : List (Text × Text)) : FileTree :=
  files.foldl (fun tree file => tree.put (partsOf (Path.clean file.1)) file.2) ⟨top, []⟩

/-- The files that are new or different, compared with an earlier tree. -/
def changesSince (tree before : FileTree) : List (Text × Text) :=
  (tree.files.filter fun file => before.content? file.1 != some file.2).map fun file =>
    (Text.joinWith Path.separator file.1, file.2)

end FileTree
end HackMachine
