import HackMachine.Instruction.Fields

/-!
# Computations

A compute instruction names one of 28 computations.  Three are constants, five take the register
`D` alone, five take one further operand alone, and five combine `D` with that operand.  The
further operand is the register `A` or the memory cell `M`; which of the two is a separate bit of
the instruction, so the 28 computations share 18 settings of the arithmetic unit.

## Spelling

`text` is the one spelling of a computation that is printed.  Addition, conjunction and
disjunction may also be written with their operands exchanged.  `canonical` orders the operands of
such a text as `text` does: `D` first, then `A` or `M`, then `1`.  It leaves every other text
alone, so reading a computation is a search for the canonical spelling.
-/

namespace HackMachine

/-- The operand that a computation may use besides `D`. -/
inductive Operand where
  /-- The register `A`. -/
  | register
  /-- The memory cell that `A` points to. -/
  | memory
  deriving DecidableEq

/-- The letter of an operand. -/
def Operand.letter : Operand → Text
  | .register => Text.ascii "A"
  | .memory => Text.ascii "M"

/-- What a computation may do to a single operand. -/
inductive Unary where
  | same
  | complement
  | negate
  | increment
  | decrement
  deriving DecidableEq

/-- A single operand in the spelling of the assembly language. -/
def Unary.text (op : Unary) (operand : Text) : Text :=
  match op with
  | .same => operand
  | .complement => Text.ascii "!" ++ operand
  | .negate => Text.ascii "-" ++ operand
  | .increment => operand ++ Text.ascii "+1"
  | .decrement => operand ++ Text.ascii "-1"

/-- What a computation may do to `D` and a further operand `y`. -/
inductive Binary where
  /-- The sum `D + y`. -/
  | add
  /-- The difference `D - y`. -/
  | subtract
  /-- The difference `y - D`. -/
  | subtractFrom
  /-- The bitwise conjunction. -/
  | conjoin
  /-- The bitwise disjunction. -/
  | disjoin
  deriving DecidableEq

/-- Two operands in the spelling of the assembly language. -/
def Binary.text (op : Binary) (y : Text) : Text :=
  match op with
  | .add => Text.ascii "D+" ++ y
  | .subtract => Text.ascii "D-" ++ y
  | .subtractFrom => y ++ Text.ascii "-D"
  | .conjoin => Text.ascii "D&" ++ y
  | .disjoin => Text.ascii "D|" ++ y

/-- What a compute instruction computes. -/
inductive Computation where
  | zero
  | one
  | minusOne
  /-- The register `D` alone. -/
  | data (op : Unary)
  /-- The further operand alone. -/
  | single (op : Unary) (y : Operand)
  /-- The register `D` and the further operand. -/
  | pair (op : Binary) (y : Operand)
  deriving DecidableEq

namespace Computation

/-- The printed spelling. -/
def text : Computation → Text
  | .zero => Text.ascii "0"
  | .one => Text.ascii "1"
  | .minusOne => Text.ascii "-1"
  | .data op => op.text (Text.ascii "D")
  | .single op y => op.text y.letter
  | .pair op y => op.text y.letter

/-- Whether the instruction reads the memory cell. -/
def readsMemory : Computation → Bool
  | .single _ .memory => true
  | .pair _ .memory => true
  | _ => false

/-- The setting of the arithmetic unit, whose operands are `D` and the further one. -/
def control : Computation → Control
  | .zero => ⟨true, false, true, false, true, false⟩
  | .one => ⟨true, true, true, true, true, true⟩
  | .minusOne => ⟨true, true, true, false, true, false⟩
  | .data .same => ⟨false, false, true, true, false, false⟩
  | .data .complement => ⟨false, false, true, true, false, true⟩
  | .data .negate => ⟨false, false, true, true, true, true⟩
  | .data .increment => ⟨false, true, true, true, true, true⟩
  | .data .decrement => ⟨false, false, true, true, true, false⟩
  | .single .same _ => ⟨true, true, false, false, false, false⟩
  | .single .complement _ => ⟨true, true, false, false, false, true⟩
  | .single .negate _ => ⟨true, true, false, false, true, true⟩
  | .single .increment _ => ⟨true, true, false, true, true, true⟩
  | .single .decrement _ => ⟨true, true, false, false, true, false⟩
  | .pair .add _ => ⟨false, false, false, false, true, false⟩
  | .pair .subtract _ => ⟨false, true, false, false, true, true⟩
  | .pair .subtractFrom _ => ⟨false, false, false, true, true, true⟩
  | .pair .conjoin _ => ⟨false, false, false, false, false, false⟩
  | .pair .disjoin _ => ⟨false, true, false, true, false, true⟩

/-- All computations. -/
def all : List Computation :=
  let unary := [Unary.same, .complement, .negate, .increment, .decrement]
  let binary := [Binary.add, .subtract, .subtractFrom, .conjoin, .disjoin]
  [zero, one, minusOne] ++ unary.map data ++
    [Operand.register, .memory].flatMap fun y =>
      unary.map (single · y) ++ binary.map (pair · y)

/-! ## Reading -/

/-- Whether an operator allows its operands to be exchanged. -/
def isCommutative (b : UInt8) : Bool :=
  b == Text.byte '+' || b == Text.byte '&' || b == Text.byte '|'

/-- The place of an operand in the canonical order. -/
def rank? (b : UInt8) : Option Nat :=
  if b = Text.byte 'D' then some 0
  else if b = Text.byte 'A' ∨ b = Text.byte 'M' then some 1
  else if b = Text.byte '1' then some 2
  else none

/-- Whether two operands stand in the wrong order. -/
def outOfOrder (x y : UInt8) : Bool :=
  match rank? x, rank? y with
  | some i, some j => j < i
  | _, _ => false

/-- The text with the operands of an exchangeable operator in canonical order. -/
def canonical : Text → Text
  | [x, op, y] => if isCommutative op && outOfOrder x y then [y, op, x] else [x, op, y]
  | t => t

/-- The computation that a text spells. -/
def ofText? (t : Text) : Option Computation := all.find? fun c => c.text == canonical t

/-- The computation with a given setting, using the register or the memory cell. -/
def ofControl? (memory : Bool) (k : Control) : Option Computation :=
  all.find? fun c => c.readsMemory == memory && c.control == k

end Computation
end HackMachine
