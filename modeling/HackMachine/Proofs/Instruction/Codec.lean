import HackMachine.Instruction.Basic

/-!
# Words and instructions

A word decodes to an instruction exactly if the instruction encodes to the word
(`Instruction.decode_eq_ok_iff`).  So the two are inverse to each other where both are defined, and
the words that do not decode are those that no instruction encodes to.

The bits settle all but the computation: `Format.ofWord` takes a word apart and `Format.addressWord`
and `Format.computeWord` put it together again.  For the computation it is used that no two of them
have both the memory bit and the control bits in common (`Computation.ofControl?_eq_some_iff`).
-/

namespace HackMachine

namespace Format

/-- An address word is put together from its address. -/
theorem addressWord_of_ofWord {w : Word} {value : Fin addressCount}
    (h : ofWord w = .address value) : addressWord value = w := by
  unfold ofWord at h
  split at h
  · cases h
    simp [addressWord]
  · split at h <;> cases h

/-- A compute word is put together from its fields. -/
theorem computeWord_of_ofWord {w : Word} {memory : Bool} {control : Control} {dest : Destination}
    {jump : Jump} (h : ofWord w = .compute memory control dest jump) :
    computeWord memory control dest jump = w := by
  unfold ofWord at h
  split at h
  · cases h
  · next large =>
    split at h
    · next marked =>
      cases h
      obtain ⟨mark14, mark13⟩ := Bool.and_eq_true_iff.1 marked
      have mark15 : w.bit 15 = true := by
        have lt := w.toNat_lt
        have half : w.toNat / 2 ^ 15 = 1 := by
          simp only [addressCount] at large
          omega
        rw [Word.bit, Nat.testBit_eq_decide_div_mod_eq, half]
        rfl
      have fields : w.bits = [w.bit 15, w.bit 14, w.bit 13, w.bit 12] ++
          Control.bits ⟨w.bit 11, w.bit 10, w.bit 9, w.bit 8, w.bit 7, w.bit 6⟩ ++
          Destination.bits ⟨w.bit 5, w.bit 4, w.bit 3⟩ ++
          Jump.bits ⟨w.bit 2, w.bit 1, w.bit 0⟩ := rfl
      rw [mark15, mark14, mark13] at fields
      rw [computeWord, ← fields, Word.ofBits_bits]
    · cases h

/-- The three highest bits of a compute word are set. -/
theorem le_toNat_computeWord (memory : Bool) (control : Control) (dest : Destination)
    (jump : Jump) : 57344 ≤ (computeWord memory control dest jump).toNat := by
  have len : ([true, true, true, memory] ++ control.bits ++ dest.bits ++ jump.bits).length = 16 :=
    rfl
  rw [computeWord, Word.toNat_ofBits len]
  simp only [Word.valueOfBits, Control.bits, Destination.bits, Jump.bits, List.cons_append,
    List.nil_append, List.foldl_cons, List.foldl_nil, Bool.toNat_true]
  omega

/-- The destination bits of a compute word. -/
theorem dest_of_ofWord {w : Word} {memory : Bool} {control : Control} {dest : Destination}
    {jump : Jump} (h : ofWord w = .compute memory control dest jump) :
    dest = ⟨w.bit 5, w.bit 4, w.bit 3⟩ := by
  unfold ofWord at h
  split at h
  · cases h
  · split at h
    · cases h
      rfl
    · cases h

/-- A word between the addresses and the compute words is reserved. -/
theorem ofWord_eq_reserved {w : Word} (notAddress : 32768 ≤ w.toNat) (notCompute : w.toNat < 57344) :
    ofWord w = .reserved := by
  cases fields : ofWord w with
  | address value =>
    have small : value.val < 32768 := value.isLt
    rw [← addressWord_of_ofWord fields, toNat_addressWord] at notAddress
    omega
  | compute memory control dest jump =>
    have large := le_toNat_computeWord memory control dest jump
    rw [computeWord_of_ofWord fields] at large
    omega
  | reserved => rfl

/-- A word with its three highest bits set is a compute instruction. -/
theorem exists_compute_of_le {w : Word} (large : 57344 ≤ w.toNat) :
    ∃ memory control dest jump, ofWord w = .compute memory control dest jump := by
  have fits : w.toNat < 65536 := w.toNat_lt
  have notAddress : ¬ w.toNat < addressCount := by
    show ¬ w.toNat < 32768
    omega
  have marked : (w.bit 14 && w.bit 13) = true := by
    simp only [Word.bit, Nat.testBit_eq_decide_div_mod_eq, Bool.and_eq_true, decide_eq_true_eq]
    omega
  rw [ofWord, dif_neg notAddress, if_pos marked]
  exact ⟨_, _, _, _, rfl⟩

end Format

namespace Computation

/-- Every computation is listed, so a property of all of them can be tested one by one. -/
theorem mem_all (c : Computation) : c ∈ all := by
  rcases c with _ | _ | _ | op | ⟨op, y⟩ | ⟨op, y⟩
  · decide
  · decide
  · decide
  · cases op <;> decide
  · cases op <;> cases y <;> decide
  · cases op <;> cases y <;> decide

/-- The memory bit and the control bits of a computation determine it. -/
theorem ofControl?_self (c : Computation) : ofControl? c.readsMemory c.control = some c :=
  (by decide : ∀ c ∈ all, ofControl? c.readsMemory c.control = some c) c c.mem_all

theorem ofControl?_eq_some_iff {memory : Bool} {k : Control} {c : Computation} :
    ofControl? memory k = some c ↔ c.readsMemory = memory ∧ c.control = k := by
  constructor
  · intro h
    have found := List.find?_some h
    rw [Bool.and_eq_true, beq_iff_eq, beq_iff_eq] at found
    exact found
  · rintro ⟨rfl, rfl⟩
    exact ofControl?_self c

end Computation

namespace Instruction

/-- What an instruction encodes to is decoded to it again. -/
theorem decode_encode (i : Instruction) : decode i.encode = .ok i := by
  cases i with
  | load value => rw [decode, encode, Format.ofWord_addressWord]
  | compute dest comp jump =>
    rw [decode, encode, Format.ofWord_computeWord]
    simp only [Computation.ofControl?_self]

/-- A word decodes to an instruction exactly if the instruction encodes to it. -/
theorem decode_eq_ok_iff {w : Word} {i : Instruction} : decode w = .ok i ↔ i.encode = w := by
  refine ⟨fun h => ?_, fun h => h ▸ decode_encode i⟩
  unfold decode at h
  split at h
  · next value fields =>
    cases h
    exact Format.addressWord_of_ofWord fields
  · cases h
  · next memory control dest jump fields =>
    split at h
    · next comp found =>
      cases h
      obtain ⟨rfl, rfl⟩ := Computation.ofControl?_eq_some_iff.1 found
      exact Format.computeWord_of_ofWord fields
    · split at h <;> cases h

end Instruction
end HackMachine
