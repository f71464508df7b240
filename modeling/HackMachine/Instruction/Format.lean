import HackMachine.Instruction.Fields

/-!
# The format of instruction words

The highest bit of a word decides what it is.  If it is clear, the other fifteen bits are an
address.  If the three highest bits are set, the word is a compute instruction

    1 1 1 m  c c c c c c  d d d  j j j

with the memory bit, the control bits of the arithmetic unit, the destination bits and the jump
bits.  Other words are reserved.

The format says nothing about which control bits have a name: the machine executes all of them, and
only the disassembler has to find one.
-/

namespace HackMachine

/-- The number of addresses that an instruction can hold. -/
abbrev addressCount : Nat := 32768

/-- A word taken apart into its fields. -/
inductive Format where
  | address (value : Fin addressCount)
  | compute (memory : Bool) (control : Control) (dest : Destination) (jump : Jump)
  | reserved
  deriving DecidableEq

namespace Format

/-- The fields of a word. -/
def ofWord (w : Word) : Format :=
  if h : w.toNat < addressCount then .address ⟨w.toNat, h⟩
  else if w.bit 14 && w.bit 13 then
    .compute (w.bit 12) ⟨w.bit 11, w.bit 10, w.bit 9, w.bit 8, w.bit 7, w.bit 6⟩
      ⟨w.bit 5, w.bit 4, w.bit 3⟩ ⟨w.bit 2, w.bit 1, w.bit 0⟩
  else .reserved

/-- The word of an address. -/
def addressWord (value : Fin addressCount) : Word := UInt16.ofNat value.val

/-- The word of a compute instruction. -/
def computeWord (memory : Bool) (control : Control) (dest : Destination) (jump : Jump) : Word :=
  Word.ofBits ([true, true, true, memory] ++ control.bits ++ dest.bits ++ jump.bits)

/-! ## The fields of a word made from fields -/

theorem toNat_addressWord (value : Fin addressCount) : (addressWord value).toNat = value.val := by
  have lt : value.val < 32768 := value.isLt
  simp only [addressWord, UInt16.toNat_ofNat']
  omega

@[simp] theorem ofWord_addressWord (value : Fin addressCount) :
    ofWord (addressWord value) = .address value := by
  simp [ofWord, toNat_addressWord]

@[simp] theorem ofWord_computeWord (memory : Bool) (control : Control) (dest : Destination)
    (jump : Jump) :
    ofWord (computeWord memory control dest jump) = .compute memory control dest jump := by
  have len : ([true, true, true, memory] ++ control.bits ++ dest.bits ++ jump.bits).length = 16 :=
    rfl
  have high : (computeWord memory control dest jump).bit 15 = true := by
    rw [computeWord, Word.bit_ofBits len]
    rfl
  have notAddress : ¬ (computeWord memory control dest jump).toNat < addressCount := by
    intro h
    rw [Word.bit, Nat.testBit_lt_two_pow (i := 15) (by simpa [addressCount] using h)] at high
    cases high
  simp only [ofWord, notAddress, dite_false]
  simp only [computeWord, Word.bit_ofBits len]
  rfl

end Format
end HackMachine
