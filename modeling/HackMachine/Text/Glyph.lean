import HackMachine.Text.Basic

/-!
# Reading bytes as UTF-8

A text is a sequence of *glyphs*.  A glyph is either a well-formed UTF-8 sequence, which has a code
point, or a single stray byte, which has none.  Every text has exactly one such reading: a byte that
starts no well-formed sequence is stray, and reading goes on with the next byte.  Overlong forms,
encoded surrogates and values above U+10FFFF are therefore stray byte by byte.

A glyph keeps its bytes, so a text is the concatenation of its glyphs and nothing has to be encoded
again after some of them have been removed.

## How the reading recurses

`glyphs` walks the bytes one at a time and counts how many of them still belong to the glyph it has
just read.  The recursion is then structural in the text, although glyphs differ in length.

## White space

A blank is a glyph whose code point has the Unicode property `White_Space`.  A stray byte is never
blank, not even `85` or `A0`, which would be blank as a code point.  `trim` removes blanks at both
ends of a text, `withoutBlanks` removes them everywhere.
-/

namespace HackMachine
namespace Text

/-- One unit of a text: a well-formed UTF-8 sequence with its code point, or a stray byte. -/
structure Glyph where
  bytes : Text
  code? : Option Nat
  deriving DecidableEq

namespace Glyph

/-- What may follow the first byte of a sequence: the bounds of the second byte, and how many
continuation bytes come after that one. -/
structure Tail where
  lowest : UInt8
  highest : UInt8
  more : Nat

/-- The tail that a first byte above ASCII asks for, if it can start a sequence.  The narrower
bounds exclude overlong forms (`E0`, `F0`), surrogates (`ED`) and values past the last code point
(`F4`). -/
def tailOf (lead : UInt8) : Option Tail :=
  if lead < 0xC2 then none
  else if lead ≤ 0xDF then some ⟨0x80, 0xBF, 0⟩
  else if lead = 0xE0 then some ⟨0xA0, 0xBF, 1⟩
  else if lead = 0xED then some ⟨0x80, 0x9F, 1⟩
  else if lead ≤ 0xEF then some ⟨0x80, 0xBF, 1⟩
  else if lead = 0xF0 then some ⟨0x90, 0xBF, 2⟩
  else if lead ≤ 0xF3 then some ⟨0x80, 0xBF, 2⟩
  else if lead = 0xF4 then some ⟨0x80, 0x8F, 2⟩
  else none

/-- A continuation byte carries six bits of a code point. -/
def isContinuation (b : UInt8) : Bool := 0x80 ≤ b && b ≤ 0xBF

/-- Whether `bytes` is a complete tail of the given shape. -/
def Tail.accepts (tail : Tail) : Text → Bool
  | [] => false
  | second :: rest =>
    tail.lowest ≤ second && second ≤ tail.highest && rest.length == tail.more &&
      rest.all isContinuation

/-- The code point of a sequence: the low bits of the first byte, then six bits of each other. -/
def codePoint (lead : UInt8) (tail : Text) : Nat :=
  tail.foldl (fun n b => 64 * n + b.toNat % 64) (lead.toNat % (64 >>> tail.length))

/-- The glyph that starts with `lead` when `rest` follows it. -/
def first (lead : UInt8) (rest : Text) : Glyph :=
  if lead < 0x80 then ⟨[lead], some lead.toNat⟩
  else
    match tailOf lead with
    | none => ⟨[lead], none⟩
    | some shape =>
      let tail := rest.take (shape.more + 1)
      if shape.accepts tail then ⟨lead :: tail, some (codePoint lead tail)⟩
      else ⟨[lead], none⟩

/-- A byte below 128 is a glyph by itself, whatever follows. -/
theorem first_of_lt {lead : UInt8} (h : lead < 0x80) (rest : Text) :
    first lead rest = ⟨[lead], some lead.toNat⟩ := if_pos h

end Glyph

/-- Continue a reading: `covered` more bytes belong to the last glyph read, and `read` holds the
glyphs so far, the last one first. -/
def glyphsFrom : (covered : Nat) → (read : List Glyph) → Text → List Glyph
  | _, read, [] => read.reverse
  | covered + 1, read, _ :: rest => glyphsFrom covered read rest
  | 0, read, lead :: rest =>
    let glyph := Glyph.first lead rest
    glyphsFrom (glyph.bytes.length - 1) (glyph :: read) rest

/-- The glyphs of a text, in order. -/
def glyphs (t : Text) : List Glyph := glyphsFrom 0 [] t

/-- The text that glyphs spell. -/
def ofGlyphs (gs : List Glyph) : Text := gs.flatMap (·.bytes)

/-- The glyphs already read stand in front of those still to come. -/
theorem glyphsFrom_eq_append (covered : Nat) (read : List Glyph) (t : Text) :
    glyphsFrom covered read t = read.reverse ++ glyphsFrom covered [] t := by
  induction t generalizing covered read with
  | nil => simp [glyphsFrom]
  | cons lead rest ih =>
    cases covered with
    | succ covered => simpa [glyphsFrom] using ih covered read
    | zero =>
      simp only [glyphsFrom]
      rw [ih _ (_ :: read), ih _ [_]]
      simp

/-- Bytes that belong to the last glyph are skipped. -/
theorem glyphsFrom_eq_glyphs_drop (covered : Nat) (t : Text) :
    glyphsFrom covered [] t = glyphs (t.drop covered) := by
  induction t generalizing covered with
  | nil => simp [glyphs, glyphsFrom]
  | cons lead rest ih =>
    cases covered with
    | succ covered => simpa [glyphsFrom] using ih covered
    | zero => rfl

@[simp] theorem glyphs_nil : glyphs [] = [] := rfl

/-- A reading starts with the first glyph and goes on behind it. -/
theorem glyphs_cons (lead : UInt8) (rest : Text) :
    glyphs (lead :: rest) =
      Glyph.first lead rest :: glyphs (rest.drop ((Glyph.first lead rest).bytes.length - 1)) := by
  rw [← glyphsFrom_eq_glyphs_drop, glyphs]
  simp only [glyphsFrom]
  rw [glyphsFrom_eq_append]
  simp

/-! ## White space -/

/-- The code points with the property `White_Space`. -/
def isBlankCode (c : Nat) : Bool :=
  (0x09 ≤ c && c ≤ 0x0D) || c == 0x20 || c == 0x85 || c == 0xA0 || c == 0x1680 ||
    (0x2000 ≤ c && c ≤ 0x200A) || c == 0x2028 || c == 0x2029 || c == 0x202F || c == 0x205F ||
    c == 0x3000

/-- Whether a glyph is white space. -/
def Glyph.isBlank (g : Glyph) : Bool := g.code?.any isBlankCode

/-- The text without the blanks it starts and ends with. -/
def trim (t : Text) : Text :=
  ofGlyphs (((glyphs t).dropWhile Glyph.isBlank).reverse.dropWhile Glyph.isBlank).reverse

/-- The text without any blank. -/
def withoutBlanks (t : Text) : Text :=
  ofGlyphs ((glyphs t).filter fun g => !g.isBlank)

@[simp] theorem trim_nil : trim [] = [] := rfl

@[simp] theorem withoutBlanks_nil : withoutBlanks [] = [] := rfl

end Text
end HackMachine
