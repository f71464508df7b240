import HackMachine.Text.Basic

/-!
# Numerals

Numbers are written in decimal.  They are read in three ways, each for its own place:

* `natural?` takes digits only, and any number of them;
* `integer?` takes an optional sign in front and refuses what does not fit 64 bits;
* `literal?` takes in addition a base mark (`0b`, `0o`, `0x`, or a leading `0` for octal) and single
  underscores between digits.

Reading is by value: leading zeros never matter, however many there are.
-/

namespace HackMachine
namespace Text

/-! ## Writing -/

/-- The decimal digits of a natural number. -/
def decimal (n : Nat) : Text := (Nat.toDigits 10 n).map byte

/-- An integer in decimal, with a minus sign if it is negative. -/
def signedDecimal (i : Int) : Text :=
  if i < 0 then byte '-' :: decimal i.natAbs else decimal i.toNat

/-! ## Reading -/

/-- The number that digits denote in a base. -/
def valueOf (base : Nat) (digits : List Nat) : Nat :=
  digits.foldl (fun n d => base * n + d) 0

/-- The value of a decimal digit. -/
def digitValue (b : UInt8) : Nat := b.toNat - (byte '0').toNat

/-- The number that decimal digits denote. -/
def decimalValue (digits : Text) : Nat := valueOf 10 (digits.map digitValue)

/-- Whether a text is a decimal numeral: one digit or more, and nothing else. -/
def isDecimal (t : Text) : Bool := !t.isEmpty && t.all isDigit

/-- The number that a text of decimal digits denotes. -/
def natural? (t : Text) : Option Nat :=
  if isDecimal t then some (decimalValue t) else none

/-- The magnitude of the least signed 64-bit number, which is one more than the greatest. -/
def int64Bound : Nat := 9223372036854775808

/-- The signed 64-bit number with this sign and magnitude, if there is one. -/
def int64? (negative : Bool) (magnitude : Nat) : Option Int :=
  if negative then
    if magnitude ≤ int64Bound then some (-magnitude) else none
  else
    if magnitude < int64Bound then some magnitude else none

/-- Split an optional sign off: whether it is a minus, and what follows. -/
def takeSign : Text → Bool × Text
  | [] => (false, [])
  | b :: rest =>
    if b = byte '-' then (true, rest)
    else if b = byte '+' then (false, rest)
    else (false, b :: rest)

/-- A decimal numeral with an optional sign that fits 64 bits. -/
def integer? (t : Text) : Option Int :=
  let (negative, digits) := takeSign t
  (natural? digits).bind (int64? negative)

/-! ## Literals with a base mark -/

/-- The value of a digit of any base up to 36, in either case. -/
def anyDigitValue? (b : UInt8) : Option Nat :=
  if isDigit b then some (digitValue b)
  else if byte 'a' ≤ b && b ≤ byte 'z' then some (b.toNat - (byte 'a').toNat + 10)
  else if byte 'A' ≤ b && b ≤ byte 'Z' then some (b.toNat - (byte 'A').toNat + 10)
  else none

/-- The base that a letter marks behind a zero. -/
def baseOfMark? (mark : UInt8) : Option Nat :=
  if mark = byte 'b' ∨ mark = byte 'B' then some 2
  else if mark = byte 'o' ∨ mark = byte 'O' then some 8
  else if mark = byte 'x' ∨ mark = byte 'X' then some 16
  else none

/-- The base of an unsigned literal, whether a base mark stands in front, and what follows it.  A
mark counts only if something follows; a zero without a mark is itself the mark of octal. -/
def takeBase : Text → Nat × Bool × Text
  | [] => (10, false, [])
  | b :: rest =>
    if b ≠ byte '0' then (10, false, b :: rest)
    else
      match rest with
      | mark :: next :: more =>
        match baseOfMark? mark with
        | some base => (base, true, next :: more)
        | none => (8, true, rest)
      | _ => (8, true, rest)

/-- Whether each underscore stands between two digits.  `behind` says whether a digit, or a base
mark, stands right before the text. -/
def underscoresSeparate : (behind : Bool) → Text → Bool
  | _, [] => true
  | behind, b :: rest =>
    if b = byte '_' then
      behind && (rest.head?.any (· != byte '_')) && underscoresSeparate false rest
    else underscoresSeparate true rest

/-- The digits of a literal as values, underscores left out, if all are digits of the base. -/
def literalDigits? (base : Nat) (t : Text) : Option (List Nat) :=
  (t.filter (· != byte '_')).mapM fun b =>
    match anyDigitValue? b with
    | some d => if d < base then some d else none
    | none => none

/-- The magnitude of an unsigned literal. -/
def literalMagnitude? (t : Text) : Option Nat :=
  let (base, marked, digits) := takeBase t
  if t.isEmpty || !underscoresSeparate marked digits then none
  else (literalDigits? base digits).map (valueOf base)

/-- An integer literal with optional sign and base mark that fits 64 bits. -/
def literal? (t : Text) : Option Int :=
  let (negative, unsigned) := takeSign t
  (literalMagnitude? unsigned).bind (int64? negative)

end Text
end HackMachine
