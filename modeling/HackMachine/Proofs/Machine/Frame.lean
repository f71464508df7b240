import HackMachine.Proofs.Machine.Access

/-!
# What a step leaves alone

`step` decides beforehand whether an instruction will fail.  `stepInOrder` makes one access after the
other, and if one fails, what the instruction has done by then is done.  The two are the same
(`step_eq_stepInOrder`), because everything that can fail comes before everything that cannot be
taken back.

What a step leaves alone can be read off the first form.

* A step that fails changes the counter and nothing else (`exists_fault_of_step`).  The counter
  plays no part in the failure (`step_of_failed`), so all further steps fail in the same way
  (`after_of_failed`).
* A step changes memory at most in the cell that `A` points to, and only if the word it executes
  stores there (`memory_step`).

`step_atomic_and_local` has both.
-/

namespace HackMachine

/-! ## One access after the other -/

namespace Access

/-- Getting at the program and the memory, and nothing else.  Where there is no such place, zero is
found, and what is stored is lost. -/
def direct : Access Id where
  word m index := m.program[index]?.getD 0
  cell m index := m.memory[index]?.getD 0
  setCell m index value := { m with memory := m.memory.setIfInBounds index value }

theorem direct_visits : direct.Visits fun _ => pure () where
  word m index inside := by
    show m.program[index]?.getD 0 = m.program[index]
    rw [Array.getElem?_eq_getElem inside, Option.getD_some]
  cell m address _ := (m.cell_eq address).symm
  setCell m address value _ := (m.store_eq address value).symm

end Access

namespace Machine

/-- One step, in the order in which things happen. -/
def stepInOrder (m : Machine) : Machine × Option MachineFault := (Access.direct.step m).run

/-- A step is what comes of one access after the other. -/
theorem step_eq_stepInOrder (m : Machine) : m.step = m.stepInOrder := by
  rw [stepInOrder, Access.direct_visits.step_eq]
  rfl

/-! ## Failing steps -/

section Failing

variable {m next : Machine} {fault : MachineFault}

/-- Whether a step fails does not depend on the counter. -/
theorem step_of_failed (failed : m.step = (next, some fault)) (steps : Int64) :
    { m with steps := steps }.step = ({ m with steps := steps + 1 }, some fault) := by
  obtain ⟨-, word, running, fetch, found⟩ := exists_fault_of_step failed
  exact step_of_fault (m := { m with steps := steps }) running fetch found

/-- Once a step has failed, all that happens is that the counter goes up. -/
theorem after_of_failed (failed : m.step = (next, some fault)) (n : Nat) :
    m.after n = { m with steps := m.steps + Int64.ofNat n } := by
  induction n with
  | zero =>
    show m = { m with steps := m.steps + 0 }
    rw [Int64.add_zero]
  | succ n ih =>
    rw [after_succ, ih, step_of_failed failed, Int64.ofNat_add, ← Int64.add_assoc]
    rfl

end Failing

/-! ## Memory -/

section Memory

variable {m : Machine}

/-- A step changes memory only by storing to the cell that `A` points to. -/
theorem memory_step (m : Machine) :
    m.step.1.memory = m.memory ∨
      m.halted = false ∧ ∃ word memory control dest jump out,
        m.program[m.pc.toNat]? = some word ∧
        Format.ofWord word = .compute memory control dest jump ∧ dest.m = true ∧
        m.step.1.memory = m.memory.setIfInBounds m.a.toNat out := by
  rcases m.step_cases with ⟨-, h⟩ | ⟨-, -, h⟩ | ⟨_, _, -, -, -, h⟩ | ⟨word, running, fetch, -, h⟩
  · rw [h]
    exact .inl rfl
  · rw [h]
    exact .inl rfl
  · rw [h]
    exact .inl rfl
  · rw [h]
    cases format : Format.ofWord word with
    | address value => exact .inl rfl
    | reserved => exact .inl rfl
    | compute memory control dest jump =>
      rw [m.count.execute_compute memory control dest jump rfl]
      cases toM : dest.m with
      | false => exact .inl rfl
      | true => exact .inr ⟨running, word, memory, control, dest, jump, _, fetch, format, toM, rfl⟩

/-- The other cells keep their content. -/
theorem getElem_memory_step {i : Nat} (mapped : i < memorySize) (other : i ≠ m.a.toNat) :
    m.step.1.memory[i] = m.memory[i] := by
  rcases m.memory_step with same | ⟨-, _, _, _, _, _, out, -, -, -, stored⟩
  · simp only [same]
  · simp only [stored]
    exact Vector.getElem_setIfInBounds_ne mapped other.symm

/-- What it takes for memory to change. -/
theorem stores_of_memory_ne (changed : m.step.1.memory ≠ m.memory) :
    m.halted = false ∧ m.a.toNat ≤ 24576 ∧ ∃ word memory control dest jump,
      m.program[m.pc.toNat]? = some word ∧
      Format.ofWord word = .compute memory control dest jump ∧ dest.m = true := by
  rcases m.memory_step with same | ⟨running, word, memory, control, dest, jump, out, fetch, format,
    toM, stored⟩
  · exact absurd same changed
  · refine ⟨running, ?_, word, memory, control, dest, jump, fetch, format, toM⟩
    -- a store to an address without a cell would have been lost
    by_contra far
    have unmapped : memorySize ≤ m.a.toNat := by
      show 24577 ≤ m.a.toNat
      omega
    exact changed (stored.trans (Vector.setIfInBounds_eq_of_size_le unmapped))

end Memory

/-! ## Both together -/

/-- What a step leaves alone, in any state of the machine.

* It does not matter whether the accesses of an instruction are checked beforehand or made one after
  the other.
* If a step fails, the counter has gone up by one and everything else is as it was.  Any number of
  further steps fail with the same fault, and do nothing but count.
* If a step succeeds, every memory cell but the one that `A` pointed to is as it was.  That cell,
  too, is as it was, unless the word that was executed is a computation with the memory cell among
  its destinations, and there is a cell at the address.
* The program is never changed. -/
theorem step_atomic_and_local (m : Machine) :
    m.step = m.stepInOrder ∧
    (∀ next fault, m.step = (next, some fault) →
      next = { m with steps := m.steps + 1 } ∧
      ∀ n, next.after n = { m with steps := m.steps + 1 + Int64.ofNat n } ∧
        (next.after n).step.2 = some fault) ∧
    (∀ next, m.step = (next, none) →
      (∀ i (_ : i < memorySize), i ≠ m.a.toNat → next.memory[i] = m.memory[i]) ∧
      (next.memory ≠ m.memory →
        m.halted = false ∧ m.a.toNat ≤ 24576 ∧ ∃ word memory control dest jump,
          m.program[m.pc.toNat]? = some word ∧
          Format.ofWord word = .compute memory control dest jump ∧ dest.m = true)) ∧
    ∀ n, (m.after n).program = m.program := by
  refine ⟨m.step_eq_stepInOrder, ?_, ?_, m.program_after⟩
  · intro next fault failed
    obtain ⟨rfl, -⟩ := exists_fault_of_step failed
    have later : ∀ n, m.count.after n = { m with steps := m.steps + 1 + Int64.ofNat n } :=
      after_of_failed (step_of_failed failed (m.steps + 1))
    refine ⟨rfl, fun n => ⟨later n, ?_⟩⟩
    rw [later, step_of_failed failed]
  · intro next succeeded
    have next_eq : next = m.step.1 := by rw [succeeded]
    subst next_eq
    exact ⟨fun i => getElem_memory_step, stores_of_memory_ne⟩

/-- The instruction `AMD=D+1;JMP`, with `A` one past the last cell: it loads no register and does
not jump.  With `A` at the last cell it does both, and stores there. -/
theorem step_atomic_and_local_lastCell :
    (∃ next, { load #[0xE7FF] with a := 24577 }.step = (next, some (.unmappedWrite 24577 0)) ∧
      next.a = 24577 ∧ next.d = 0 ∧ next.pc = 0 ∧
      ∀ n, (next.after n).step.2 = some (.unmappedWrite 24577 0)) ∧
    ∃ next, { load #[0xE7FF] with a := 24576 }.step = (next, none) ∧
      next.a = 1 ∧ next.d = 1 ∧ next.pc = 24576 ∧
      next.memory[24576] = 1 ∧ next.memory[24575] = 0 := by
  constructor
  · have failed : { load #[0xE7FF] with a := 24577 }.step =
        (_, some (.unmappedWrite 24577 0)) := rfl
    obtain ⟨-, fails, -⟩ := step_atomic_and_local { load #[0xE7FF] with a := 24577 }
    obtain ⟨-, further⟩ := fails _ _ failed
    exact ⟨_, failed, rfl, rfl, rfl, fun n => (further n).2⟩
  · have succeeded : { load #[0xE7FF] with a := 24576 }.step = (_, none) := rfl
    obtain ⟨-, -, frame, -⟩ := step_atomic_and_local { load #[0xE7FF] with a := 24576 }
    obtain ⟨others, -⟩ := frame _ succeeded
    refine ⟨_, succeeded, rfl, rfl, rfl, ?_, ?_⟩
    · exact Vector.getElem_set_self _
    · rw [others 24575 (by decide) (by decide)]
      simp [load]

end Machine
end HackMachine
