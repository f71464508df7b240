import HackMachine.Word

/-!
# The fields of a compute instruction

A compute instruction has a destination, a jump condition, and the control bits of the arithmetic
unit.

* A *destination* is a set of the three places that a result can be stored in: the register `A`, the
  register `D` and the memory cell `M` that `A` points to.  It is written as a run of their letters.
  The order of the letters and repeated letters do not matter when a destination is read; it is
  always printed in the order `A`, `D`, `M`.
* A *jump condition* is the set of signs of the result on which the instruction jumps, so there are
  eight of them.  Seven have a name; the empty set, which never jumps, is written by writing nothing.
* The *control bits* say how the arithmetic unit combines two words.  Each operand is first replaced
  by zero and then complemented, if its bits say so; the two are added or conjoined; and the result
  may be complemented.  All 64 settings compute something, although only 18 of them have a name in
  the assembly language.
-/

namespace HackMachine

/-! ## Destinations -/

/-- The places a result is stored in. -/
structure Destination where
  a : Bool
  d : Bool
  m : Bool
  deriving DecidableEq

namespace Destination

/-- Whether a byte names a place. -/
def isPlace (b : UInt8) : Bool :=
  b == Text.byte 'A' || b == Text.byte 'D' || b == Text.byte 'M'

/-- Read a run of place letters, possibly empty. -/
def ofText? (t : Text) : Option Destination :=
  if t.all isPlace then
    some ⟨t.contains (Text.byte 'A'), t.contains (Text.byte 'D'), t.contains (Text.byte 'M')⟩
  else none

/-- The letters of a destination. -/
def text (dest : Destination) : Text :=
  (if dest.a then [Text.byte 'A'] else []) ++ (if dest.d then [Text.byte 'D'] else []) ++
    (if dest.m then [Text.byte 'M'] else [])

/-- The three destination bits of an instruction. -/
def bits (dest : Destination) : List Bool := [dest.a, dest.d, dest.m]

end Destination

/-! ## Jump conditions -/

/-- The signs of a result on which control moves to the address in `A`. -/
structure Jump where
  negative : Bool
  zero : Bool
  positive : Bool
  deriving DecidableEq

namespace Jump

/-- The condition that never holds. -/
def never : Jump := ⟨false, false, false⟩

/-- The condition that always holds. -/
def always : Jump := ⟨true, true, true⟩

/-- The name of a condition; empty for the one that never holds. -/
def text : Jump → Text
  | ⟨false, false, false⟩ => []
  | ⟨false, false, true⟩ => Text.ascii "JGT"
  | ⟨false, true, false⟩ => Text.ascii "JEQ"
  | ⟨false, true, true⟩ => Text.ascii "JGE"
  | ⟨true, false, false⟩ => Text.ascii "JLT"
  | ⟨true, false, true⟩ => Text.ascii "JNE"
  | ⟨true, true, false⟩ => Text.ascii "JLE"
  | ⟨true, true, true⟩ => Text.ascii "JMP"

/-- All conditions. -/
def all : List Jump :=
  [⟨false, false, false⟩, ⟨false, false, true⟩, ⟨false, true, false⟩, ⟨false, true, true⟩,
   ⟨true, false, false⟩, ⟨true, false, true⟩, ⟨true, true, false⟩, ⟨true, true, true⟩]

/-- The condition with a given name. -/
def ofText? (t : Text) : Option Jump := all.find? fun jump => jump.text == t

/-- The three jump bits of an instruction. -/
def bits (jump : Jump) : List Bool := [jump.negative, jump.zero, jump.positive]

/-- Whether the condition holds of a result, read as a signed number. -/
def holds (jump : Jump) (result : Word) : Bool :=
  if result = 0 then jump.zero
  else if result.bit 15 then jump.negative
  else jump.positive

end Jump

/-! ## Control bits -/

/-- The six control bits of the arithmetic unit. -/
structure Control where
  /-- Replace the first operand by zero. -/
  zeroX : Bool
  /-- Complement the first operand. -/
  notX : Bool
  /-- Replace the second operand by zero. -/
  zeroY : Bool
  /-- Complement the second operand. -/
  notY : Bool
  /-- Add the operands instead of conjoining them. -/
  add : Bool
  /-- Complement the result. -/
  notOut : Bool
  deriving DecidableEq

namespace Control

/-- The control bits, the highest first. -/
def bits (k : Control) : List Bool := [k.zeroX, k.notX, k.zeroY, k.notY, k.add, k.notOut]

/-- An operand after its two control bits have been applied. -/
def prepare (zero complement : Bool) (x : Word) : Word :=
  let x := if zero then 0 else x
  if complement then ~~~x else x

/-- The result for two operands. -/
def apply (k : Control) (x y : Word) : Word :=
  let x := prepare k.zeroX k.notX x
  let y := prepare k.zeroY k.notY y
  let out := if k.add then x + y else x &&& y
  if k.notOut then ~~~out else out

end Control

end HackMachine
