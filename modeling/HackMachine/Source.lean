import HackMachine.Text.Glyph
import HackMachine.Text.Numeral

/-!
# Source text

A source text is read line by line.  A line feed ends a line, and a last line need not have
one.  Each line is *cleaned*: a comment, which runs from the first `//` to the end of the line, is
cut off, and blanks at both ends are removed.  Lines that are empty after that are dropped, but
they count: every line keeps the number it has in the text.

A carriage return in front of a line feed needs no rule of its own, since it is a blank.

A line of `lineLimit` bytes or more makes the text unreadable as a whole.  The limit is on the
line as it stands in the text, before it is cleaned.
-/

namespace HackMachine

/-- A line of a source text, cleaned, with its number. -/
structure SourceLine where
  number : Int
  text : Text
  deriving DecidableEq

namespace Source

/-! ## Cleaning -/

/-- Read on to the first `//`; `kept` holds what stands before, the last byte first. -/
def beforeCommentFrom : (kept : Text) → Text → Text
  | kept, [] => kept.reverse
  | kept, b :: rest =>
    if b = Text.byte '/' ∧ rest.head? = some (Text.byte '/') then kept.reverse
    else beforeCommentFrom (b :: kept) rest

/-- The part of a line before its comment. -/
def beforeComment (t : Text) : Text := beforeCommentFrom [] t

/-- A line without its comment and without blanks at its ends. -/
def clean (t : Text) : Text := (beforeComment t).trim

theorem beforeCommentFrom_eq_append (kept t : Text) :
    beforeCommentFrom kept t = kept.reverse ++ beforeComment t := by
  unfold beforeComment
  induction t generalizing kept with
  | nil => simp [beforeCommentFrom]
  | cons b rest ih =>
    simp only [beforeCommentFrom]
    split
    · simp
    · rw [ih (b :: kept), ih [b]]
      simp

@[simp] theorem beforeComment_nil : beforeComment [] = [] := rfl

/-- The part before the comment, byte by byte. -/
theorem beforeComment_cons (b : UInt8) (rest : Text) :
    beforeComment (b :: rest) =
      if b = Text.byte '/' ∧ rest.head? = some (Text.byte '/') then []
      else b :: beforeComment rest := by
  rw [beforeComment, beforeCommentFrom]
  split
  · rfl
  · rw [beforeCommentFrom_eq_append]
    rfl

/-! ## Lines -/

/-- The lines of a text, without the line feeds that end them. -/
def physicalLines (t : Text) : List Text :=
  let parts := t.splitOn Text.newline
  if parts.getLast? = some [] then parts.dropLast else parts

/-- A line with this many bytes is too long. -/
def lineLimit : Nat := 65536

/-- What can keep a source text from being read. -/
inductive Obstacle where
  /-- A line reaches the limit. -/
  | lineTooLong
  /-- The file that holds the text cannot be read; the report says why. -/
  | unreadable (report : Text)
  deriving DecidableEq

/-- An obstacle and the number of the line at which it was met. -/
structure Fault where
  line : Nat
  obstacle : Obstacle
  deriving DecidableEq

/-- What is reported about a text that cannot be read. -/
def Fault.message (fault : Fault) : Text :=
  Text.ascii "reading source near line " ++ Text.decimal fault.line ++ Text.ascii ": " ++
    match fault.obstacle with
    | .lineTooLong => Text.ascii "bufio.Scanner: token too long"
    | .unreadable report => report

/-- The cleaned lines of a text that are not empty, in order and with their numbers. -/
def read (t : Text) : Except Fault (List SourceLine) :=
  let lines := (physicalLines t).zipIdx 1
  match lines.find? (fun line => lineLimit ≤ line.1.length) with
  | some long => .error ⟨long.2, .lineTooLong⟩
  | none =>
    .ok (lines.filterMap fun line =>
      let text := clean line.1
      if text.isEmpty then none else some ⟨line.2, text⟩)

end Source
end HackMachine
