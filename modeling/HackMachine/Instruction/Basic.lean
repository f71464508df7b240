import HackMachine.Instruction.Computation
import HackMachine.Instruction.Format
import HackMachine.Instruction.Malformation
import HackMachine.Text.Numeral

/-!
# Instructions

An instruction of the machine either loads an address into the register `A`, or computes, stores
and possibly jumps.  Instructions have two written forms, the word that the machine executes and
the line of assembly language that a disassembler prints:

* `encode` gives the word, and `decode` finds the instruction again;
* `text` gives the line, and `ofFields` reads the three fields of a compute line.

`decode` fails on three kinds of words, told apart by `Malformation`: reserved words, compute words
whose control bits have no name, and compute words that select the memory cell although their
computation has no further operand.  No instruction encodes to any of these.
-/

namespace HackMachine

/-- An instruction of the machine. -/
inductive Instruction where
  /-- Load an address into the register `A`. -/
  | load (value : Fin addressCount)
  /-- Compute, store the result, and jump if the result satisfies the condition. -/
  | compute (dest : Destination) (comp : Computation) (jump : Jump)
  deriving DecidableEq

namespace Instruction

/-- The word of an instruction. -/
def encode : Instruction → Word
  | .load value => Format.addressWord value
  | .compute dest comp jump => Format.computeWord comp.readsMemory comp.control dest jump

/-- The instruction of a word. -/
def decode (w : Word) : Except Malformation Instruction :=
  match Format.ofWord w with
  | .address value => .ok (.load value)
  | .reserved => .error (.reservedBits w)
  | .compute memory control dest jump =>
    match Computation.ofControl? memory control with
    | some comp => .ok (.compute dest comp jump)
    | none =>
      if (Computation.ofControl? false control).isSome then .error (.idleMemoryBit w)
      else .error (.unnamedControl w)

/-- The instruction as a line of assembly language. -/
def text : Instruction → Text
  | .load value => Text.byte '@' :: Text.decimal value
  | .compute dest comp jump =>
    (if dest.text.isEmpty then [] else dest.text ++ [Text.byte '=']) ++ comp.text ++
      (if jump.text.isEmpty then [] else Text.byte ';' :: jump.text)

/-- The instruction that loads an address, if the address fits. -/
def ofAddress? (address : Int) : Option Instruction :=
  if h : 0 ≤ address ∧ address < addressCount then
    some (.load ⟨address.toNat, by omega⟩)
  else none

/-- The compute instruction with the given fields.  An unknown computation is reported before a bad
destination, and that before an unknown jump. -/
def ofFields (dest comp jump : Text) : Except Malformation Instruction :=
  match Computation.ofText? comp with
  | none => .error (.computation comp)
  | some c =>
    match Destination.ofText? dest with
    | none => .error (.destination dest)
    | some d =>
      match Jump.ofText? jump with
      | none => .error (.jump jump)
      | some j => .ok (.compute d c j)

end Instruction
end HackMachine
