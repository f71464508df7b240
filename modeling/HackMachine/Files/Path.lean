import HackMachine.Text.Basic

/-!
# Paths

A path is a text whose parts are separated by slashes.  The extension of a path is the end of its
last part from the last dot on; a part may consist of its extension alone.

`clean` gives the shortest path that denotes the same place by its spelling: empty parts and
single dots are dropped, and a double dot cancels the part before it.  It asks no file system.

A relative path starts at the working directory.  The system may fail to say what that is.
-/

namespace HackMachine
namespace Path

/-- The byte that separates the parts of a path. -/
def separator : UInt8 := Text.byte '/'

/-- A part that stays in place. -/
def here : Text := Text.ascii "."

/-- A part that goes up. -/
def up : Text := Text.ascii ".."

/-- Whether a path starts at the root of the file system. -/
def isAbsolute (path : Text) : Bool := path.head? == some separator

/-! ## Extensions -/

/-- The last part of a path from its last dot on; empty if it has no dot. -/
def extension (path : Text) : Text :=
  let ending := fun b => b != Text.byte '.' && b != separator
  match path.reverse.dropWhile ending with
  | [] => []
  | b :: _ => if b = separator then [] else b :: (path.reverse.takeWhile ending).reverse

/-- The path with another extension. -/
def withExtension (path ext : Text) : Text :=
  path.take (path.length - (extension path).length) ++ ext

/-! ## Cleaning -/

/-- Go on to another part; `parts` holds the way so far, the last part first. -/
def follow (absolute : Bool) (parts : List Text) (part : Text) : List Text :=
  if part = [] ∨ part = here then parts
  else if part = up then
    match parts with
    | [] => if absolute then [] else [up]
    | last :: before => if last = up then up :: parts else before
  else part :: parts

/-- The shortest path with the same meaning. -/
def clean (path : Text) : Text :=
  let parts := (path.splitOn separator).foldl (follow (isAbsolute path)) []
  let body := Text.joinWith separator parts.reverse
  if isAbsolute path then separator :: body
  else if body.isEmpty then here
  else body

/-! ## The working directory -/

/-- Why the working directory is not known.  The system says so in its own words. -/
structure DirectoryFault where
  message : Text
  deriving DecidableEq

/-- The clean absolute path of a path that may be relative to the working directory. -/
def absolute (cwd : Except DirectoryFault Text) (path : Text) : Except DirectoryFault Text :=
  if isAbsolute path then .ok (clean path)
  else cwd.map fun directory => clean (directory ++ separator :: path)

/-- The path next to `path`, as an absolute path, that has another extension. -/
def sibling (cwd : Except DirectoryFault Text) (path ext : Text) : Except DirectoryFault Text :=
  (absolute cwd path).map (withExtension · ext)

end Path
end HackMachine
