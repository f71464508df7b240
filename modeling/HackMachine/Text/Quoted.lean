import HackMachine.Text.Glyph
import HackMachine.Text.Printable

/-!
# Quoted text

Messages show some texts between double quotes, so that any text can be told apart from its
surroundings.  Printable glyphs stand for themselves, except that the quote and the backslash get
a backslash in front.  The seven control characters with a letter of their own are written with
it, the other ASCII controls and all stray bytes as two hexadecimal digits, and every other code
point as four or, past U+FFFF, as eight.
-/

namespace HackMachine
namespace Text

/-- A hexadecimal digit, in lower case. -/
def hexDigit (n : Nat) : UInt8 :=
  if n < 10 then byte '0' + n.toUInt8 else byte 'a' + (n - 10).toUInt8

/-- The last `width` hexadecimal digits of `n`. -/
def hex (width n : Nat) : Text :=
  (List.range width).reverse.map fun place => hexDigit ((n >>> (4 * place)) % 16)

/-- The letter that names a control character behind a backslash. -/
def controlLetter? (c : Nat) : Option UInt8 :=
  match c with
  | 0x07 => some (byte 'a')
  | 0x08 => some (byte 'b')
  | 0x09 => some (byte 't')
  | 0x0A => some (byte 'n')
  | 0x0B => some (byte 'v')
  | 0x0C => some (byte 'f')
  | 0x0D => some (byte 'r')
  | _ => none

/-- A code point as it stands between quotes; `bytes` are its own bytes. -/
def quotedCode (bytes : Text) (c : Nat) : Text :=
  if c = 0x22 ∨ c = 0x5C then byte '\\' :: bytes
  else if isPrintable c then bytes
  else
    match controlLetter? c with
    | some letter => [byte '\\', letter]
    | none =>
      if c < 0x20 ∨ c = 0x7F then ascii "\\x" ++ hex 2 c
      else if c < 0x10000 then ascii "\\u" ++ hex 4 c
      else ascii "\\U" ++ hex 8 c

/-- A glyph as it stands between quotes. -/
def quotedGlyph (g : Glyph) : Text :=
  match g.code? with
  | some c => quotedCode g.bytes c
  | none => g.bytes.flatMap fun b => ascii "\\x" ++ hex 2 b.toNat

/-- The text between double quotes. -/
def quoted (t : Text) : Text :=
  byte '"' :: (glyphs t).flatMap quotedGlyph ++ [byte '"']

end Text
end HackMachine
