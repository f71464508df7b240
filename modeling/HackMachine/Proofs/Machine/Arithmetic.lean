import HackMachine.Instruction.Computation
import HackMachine.Instruction.Fields

/-!
# What computations and jumps mean

The arithmetic unit is set by six control bits, and a jump condition is a set of three bits.  Here is
what they amount to in terms of two's complement numbers:

* `Computation.apply_control`: the control bits of a computation make the arithmetic unit compute the
  `value` of the computation, which is stated with the arithmetic of words;
* `Jump.holds_eq`: the bit that decides about a jump is selected by the sign of the result, read as
  a signed number.
-/

namespace HackMachine

/-! ## Complements -/

namespace Word

theorem not_not_add (x y : Word) : ~~~(~~~x + y) = x - y := by
  simp only [UInt16.not_eq_neg_sub]
  grind

theorem not_add_not (x y : Word) : ~~~(x + ~~~y) = y - x := by
  rw [UInt16.add_comm, not_not_add]

theorem add_not_zero (x : Word) : x + ~~~0 = x - 1 := by
  simp only [UInt16.not_eq_neg_sub]
  grind

theorem sub_not_zero (x : Word) : x - ~~~0 = x + 1 := by
  simp only [UInt16.not_eq_neg_sub]
  grind

theorem and_not_zero (x : Word) : x &&& ~~~0 = x := by
  rw [UInt16.not_zero, UInt16.and_neg_one]

theorem not_zero_and (x : Word) : ~~~0 &&& x = x := by
  rw [UInt16.and_comm, and_not_zero]

theorem not_not_and_not (x y : Word) : ~~~(~~~x &&& ~~~y) = x ||| y := by
  rw [← UInt16.toBitVec_inj]
  simp [BitVec.not_and]

end Word

/-! ## Computations -/

/-- The result of an operation on one operand. -/
def Unary.apply (op : Unary) (x : Word) : Word :=
  match op with
  | .same => x
  | .complement => ~~~x
  | .negate => -x
  | .increment => x + 1
  | .decrement => x - 1

/-- The result of an operation on `D` and the further operand. -/
def Binary.apply (op : Binary) (d y : Word) : Word :=
  match op with
  | .add => d + y
  | .subtract => d - y
  | .subtractFrom => y - d
  | .conjoin => d &&& y
  | .disjoin => d ||| y

namespace Computation

/-- The result of a computation, given `D` and the further operand. -/
def value (c : Computation) (d y : Word) : Word :=
  match c with
  | .zero => 0
  | .one => 1
  | .minusOne => -1
  | .data op => op.apply d
  | .single op _ => op.apply y
  | .pair op _ => op.apply d y

/-- The control bits of a computation compute its value. -/
theorem apply_control (c : Computation) (d y : Word) : c.control.apply d y = c.value d y := by
  cases c with
  | zero => rfl
  | one =>
    calc ~~~(~~~(0 : Word) + ~~~0) = 0 - ~~~0 := Word.not_not_add 0 (~~~0)
      _ = 0 + 1 := Word.sub_not_zero 0
      _ = 1 := UInt16.zero_add 1
  | minusOne => exact (UInt16.add_zero (~~~0)).trans UInt16.not_zero
  | data op =>
    cases op with
    | same => exact Word.and_not_zero d
    | complement => exact congrArg (~~~·) (Word.and_not_zero d)
    | negate => exact (Word.not_add_not d 0).trans (UInt16.zero_sub d)
    | increment => exact (Word.not_not_add d (~~~0)).trans (Word.sub_not_zero d)
    | decrement => exact Word.add_not_zero d
  | single op _ =>
    cases op with
    | same => exact Word.not_zero_and y
    | complement => exact congrArg (~~~·) (Word.not_zero_and y)
    | negate => exact (Word.not_not_add 0 y).trans (UInt16.zero_sub y)
    | increment => exact (Word.not_add_not (~~~0) y).trans (Word.sub_not_zero y)
    | decrement => exact (UInt16.add_comm _ _).trans (Word.add_not_zero y)
  | pair op _ =>
    cases op with
    | add => rfl
    | subtract => exact Word.not_not_add d y
    | subtractFrom => exact Word.not_add_not d y
    | conjoin => rfl
    | disjoin => exact Word.not_not_and_not d y

end Computation

/-! ## Jumps -/

namespace Word

/-- The highest bit is the sign. -/
theorem bit_fifteen (w : Word) : w.bit 15 = decide (w.toSigned < 0) := by
  have lt := w.toNat_lt
  have sign : w.toSigned < 0 ↔ 2 ^ 16 ≤ 2 * w.toNat := BitVec.toInt_neg_iff
  rw [bit, Nat.testBit_eq_decide_div_mod_eq, decide_eq_decide, sign]
  omega

theorem toSigned_eq_zero_iff {w : Word} : w.toSigned = 0 ↔ w = 0 := by
  rw [← UInt16.toBitVec_inj, ← BitVec.toInt_inj]
  rfl

end Word

/-- A jump is decided by the sign of the result. -/
theorem Jump.holds_eq (jump : Jump) (result : Word) :
    jump.holds result =
      if result.toSigned = 0 then jump.zero
      else if result.toSigned < 0 then jump.negative
      else jump.positive := by
  simp only [holds, Word.bit_fifteen, decide_eq_true_eq, Word.toSigned_eq_zero_iff]

end HackMachine
