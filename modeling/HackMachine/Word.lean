import HackMachine.Text.Basic
import HackMachine.Text.Quoted

/-!
# Machine words

A word is a 16-bit unsigned number; registers, memory cells and instructions are words.  In a
listing a word is written as sixteen binary digits, the highest first.

`bits` and `ofBits` are the view of a word as sixteen truth values.  The instruction format is
stated in terms of this view, so that a field of an instruction is a run of bits and not a shift
and a mask.
-/

namespace HackMachine

/-- A 16-bit machine word. -/
abbrev Word := UInt16

namespace Word

/-- Bit `i` of a word, counted from the lowest. -/
def bit (w : Word) (i : Nat) : Bool := w.toNat.testBit i

/-- The number that bits denote, the highest first. -/
def valueOfBits (bits : List Bool) : Nat :=
  bits.foldl (fun n b => 2 * n + b.toNat) 0

/-- The word with the given bits, the highest first. -/
def ofBits (bits : List Bool) : Word := UInt16.ofNat (valueOfBits bits)

/-- The sixteen bits of a word, the highest first. -/
def bits (w : Word) : List Bool := (List.range 16).reverse.map w.bit

@[simp] theorem length_bits (w : Word) : w.bits.length = 16 := by simp [bits]

/-! ## The two views agree -/

theorem valueOfBits_append (bits : List Bool) (b : Bool) :
    valueOfBits (bits ++ [b]) = 2 * valueOfBits bits + b.toNat := by
  simp [valueOfBits, List.foldl_append]

/-- Bit `i` of a number is the bit that stands `i` places from the right. -/
theorem testBit_valueOfBits_reverse (r : List Bool) (i : Nat) :
    (valueOfBits r.reverse).testBit i = r.getD i false := by
  induction r generalizing i with
  | nil => simp [valueOfBits]
  | cons b r ih =>
    rw [List.reverse_cons, valueOfBits_append]
    cases i with
    | zero => cases b <;> simp [Nat.testBit_zero]
    | succ i =>
      have half : (2 * valueOfBits r.reverse + b.toNat) / 2 = valueOfBits r.reverse := by
        have := Bool.toNat_lt b
        omega
      rw [Nat.testBit_succ, half, ih]
      rfl

/-- A number has no more bits than it was given. -/
theorem valueOfBits_lt (bits : List Bool) : valueOfBits bits < 1 <<< bits.length := by
  suffices h : ∀ n, bits.foldl (fun n b => 2 * n + b.toNat) n < (n + 1) <<< bits.length by
    simpa [valueOfBits] using h 0
  induction bits with
  | nil => simp
  | cons b bits ih =>
    intro n
    have next : 2 * n + b.toNat + 1 ≤ (n + 1) <<< 1 := by
      have := Bool.toNat_le b
      simp only [Nat.shiftLeft_eq]
      omega
    refine Nat.lt_of_lt_of_le (ih _) ?_
    rw [List.length_cons, Nat.add_comm bits.length 1, Nat.shiftLeft_add,
      Nat.shiftLeft_eq _ bits.length, Nat.shiftLeft_eq _ bits.length]
    exact Nat.mul_le_mul_right _ next

theorem toNat_ofBits {bits : List Bool} (h : bits.length = 16) :
    (ofBits bits).toNat = valueOfBits bits := by
  have lt := valueOfBits_lt bits
  rw [h] at lt
  simp only [ofBits, UInt16.toNat_ofNat']
  omega

/-- Bit `i` of a word given by its bits. -/
theorem bit_ofBits {bits : List Bool} (h : bits.length = 16) (i : Nat) :
    (ofBits bits).bit i = bits.reverse.getD i false := by
  rw [bit, toNat_ofBits h, ← testBit_valueOfBits_reverse, List.reverse_reverse]

theorem bits_ofBits {bits : List Bool} (h : bits.length = 16) : (ofBits bits).bits = bits := by
  apply List.ext_getElem
  · simp [h]
  · intro i hi hi'
    have place : bits.length - 1 - (16 - 1 - i) = i := by omega
    simp only [Word.bits, List.getElem_map, List.getElem_reverse, List.getElem_range,
      List.length_range]
    rw [bit_ofBits h, List.getD_eq_getElem?_getD, List.getElem?_reverse (by omega)]
    simp [place, hi']

theorem ofBits_bits (w : Word) : ofBits w.bits = w := by
  apply UInt16.toNat_inj.1
  apply Nat.eq_of_testBit_eq
  intro i
  rw [← bit, bit_ofBits (length_bits w)]
  simp only [bits, ← List.map_reverse, List.reverse_reverse, List.getD_eq_getElem?_getD,
    List.getElem?_map]
  by_cases hi : i < 16
  · simp [hi, bit]
  · have small : w.toNat < 2 ^ i :=
      Nat.lt_of_lt_of_le w.toNat_lt (Nat.pow_le_pow_right (by decide) (by omega))
    simp [hi, Nat.testBit_lt_two_pow small]

/-! ## Numbers -/

/-- A word read as a two's complement number. -/
def toSigned (w : Word) : Int := w.toBitVec.toInt

/-! ## Binary digits -/

/-- The digit of a bit. -/
def binaryDigit (b : Bool) : UInt8 := if b then Text.byte '1' else Text.byte '0'

/-- The sixteen binary digits of a word. -/
def binary (w : Word) : Text := w.bits.map binaryDigit

@[simp] theorem length_binary (w : Word) : w.binary.length = 16 := by simp [binary]

/-- Why a text is not the binary form of a word. -/
inductive Fault where
  /-- It does not have sixteen bytes. -/
  | length (text : Text)
  /-- It has sixteen bytes, but not all are binary digits. -/
  | digits (text : Text)
  deriving DecidableEq

/-- What is reported about a text that is not a word. -/
def Fault.message : Fault → Text
  | .length text =>
    Text.ascii "machine word " ++ text.quoted ++ Text.ascii " must be 16 binary digits"
  | .digits text => Text.ascii "machine word " ++ text.quoted ++ Text.ascii " is not binary"

/-- Whether a byte is a binary digit. -/
def isBinaryDigit (b : UInt8) : Bool := b == Text.byte '0' || b == Text.byte '1'

/-- Read sixteen binary digits. -/
def ofBinary (t : Text) : Except Fault Word :=
  if t.length ≠ 16 then .error (.length t)
  else if t.all isBinaryDigit then .ok (ofBits (t.map (· == Text.byte '1')))
  else .error (.digits t)

end Word
end HackMachine
