/-!
# Text as bytes

Everything the assembler reads and prints is a list of bytes.  A source file need not be well-formed
UTF-8, and an error message repeats the bytes it complains about, so characters are a view of the
text (`Text.Glyph`) and not its substance.

The words of the assembly language and of the messages are ASCII; `ascii` turns such a literal
into its bytes.  The functions here cut a text at a byte.  Each is built from `takeWhile`,
`dropWhile` and folds, so none needs stack in proportion to the length of the text.

* `cut`: the part before the first occurrence of a byte, and the part after it.
* `splitOn`: the parts between all occurrences of a byte.
-/

namespace HackMachine

/-- Text is a list of bytes, well-formed as UTF-8 or not. -/
abbrev Text := List UInt8

namespace Text

/-- The byte of an ASCII character. -/
def byte (c : Char) : UInt8 := c.toUInt8

/-- The bytes of an ASCII literal. -/
def ascii (s : String) : Text := s.toList.map byte

/-- The line feed, which ends a line. -/
def newline : UInt8 := byte '\n'

/-! ## Classes of bytes -/

/-- A decimal digit. -/
def isDigit (b : UInt8) : Bool := byte '0' ≤ b && b ≤ byte '9'

/-- An ASCII letter of either case. -/
def isLetter (b : UInt8) : Bool :=
  (byte 'A' ≤ b && b ≤ byte 'Z') || (byte 'a' ≤ b && b ≤ byte 'z')

/-! ## Cutting -/

/-- Cut at the first occurrence of `sep`: what stands before it, and what stands after it if it
occurs at all. -/
def cut (sep : UInt8) (t : Text) : Text × Option Text :=
  (t.takeWhile (· != sep), (t.dropWhile (· != sep)).tail?)

/-- The parts of a text between the occurrences of `sep`: always one more than there are
occurrences, so the empty text has one empty part. -/
def splitOn (sep : UInt8) (t : Text) : List Text :=
  let parts := t.foldr
    (fun b (parts : Text × List Text) =>
      if b = sep then ([], parts.1 :: parts.2) else (b :: parts.1, parts.2))
    ([], [])
  parts.1 :: parts.2

@[simp] theorem splitOn_nil (sep : UInt8) : splitOn sep [] = [[]] := rfl

theorem splitOn_cons_self (sep : UInt8) (t : Text) :
    splitOn sep (sep :: t) = [] :: splitOn sep t := by
  simp [splitOn]

theorem splitOn_cons_of_ne {sep b : UInt8} (h : b ≠ sep) (t : Text) :
    splitOn sep (b :: t) = (b :: (splitOn sep t).headD []) :: (splitOn sep t).tail := by
  simp [splitOn, h]

/-- The parts joined again, with `sep` between each two. -/
def joinWith (sep : UInt8) : List Text → Text
  | [] => []
  | part :: parts => part ++ parts.flatMap (sep :: ·)

end Text
end HackMachine
