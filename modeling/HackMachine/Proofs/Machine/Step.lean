import HackMachine.Machine.Step
import Mathlib.Logic.Function.Iterate

/-!
# The steps of the machine

There are four kinds of steps, and `step_cases` says everything about each of them: the machine has
halted, the program counter is past the end of the program, the word at the program counter cannot be
executed, or it is executed.

`after` is the machine after some steps.  A failed step does not end this: the machine may be asked to
go on, and will fail again.
-/

namespace HackMachine
namespace Machine

/-! ## Memory -/

theorem cell_eq (m : Machine) (address : Word) :
    m.cell address = m.memory[address.toNat]?.getD 0 := by
  unfold cell
  split
  · next mapped => simp [mapped]
  · next unmapped => simp [unmapped]

/-- A store changes the memory only. -/
theorem store_eq (m : Machine) (address value : Word) :
    m.store address value =
      { m with memory := m.memory.setIfInBounds address.toNat value } := by
  unfold store
  split
  · next mapped =>
    have same : m.memory.set address.toNat value mapped =
        m.memory.setIfInBounds address.toNat value := by
      ext i hi
      simp [Vector.getElem_set, Vector.getElem_setIfInBounds]
    rw [same]
  · next unmapped =>
    have same : m.memory = m.memory.setIfInBounds address.toNat value := by
      ext i hi
      have apart : address.toNat ≠ i := by omega
      simp [apart]
    rw [← same]

/-- Stores to different addresses can be exchanged. -/
theorem store_comm (m : Machine) {address other : Word} (apart : address ≠ other)
    (value value' : Word) :
    (m.store address value).store other value' = (m.store other value').store address value := by
  have places : address.toNat ≠ other.toNat := fun same => apart (UInt16.toNat_inj.1 same)
  simp only [store_eq, mk.injEq, true_and, and_true]
  rw [← Vector.toArray_inj]
  exact Array.setIfInBounds_comm value value' places

/-! ## One step -/

section Steps

variable {m : Machine} (running : m.halted = false)

theorem step_of_halted (halted : m.halted = true) : m.step = (m, none) := by
  simp [step, halted]

include running

theorem step_of_end (fetch : m.program[m.pc.toNat]? = none) :
    m.step = ({ m with halted := true }, none) := by
  simp [step, running, fetch]

variable {word : Word} (fetch : m.program[m.pc.toNat]? = some word)

include fetch

theorem step_of_fault {fault : MachineFault} (fails : m.fault? word (.ofWord word) = some fault) :
    m.step = (m.count, some fault) := by
  simp [step, running, fetch, fails]

theorem step_of_word (fine : m.fault? word (.ofWord word) = none) :
    m.step = (m.count.execute (.ofWord word), none) := by
  simp [step, running, fetch, fine]

end Steps

/-- What a step can do. -/
theorem step_cases (m : Machine) :
    (m.halted = true ∧ m.step = (m, none)) ∨
    (m.halted = false ∧ m.program[m.pc.toNat]? = none ∧
      m.step = ({ m with halted := true }, none)) ∨
    (∃ word fault, m.halted = false ∧ m.program[m.pc.toNat]? = some word ∧
      m.fault? word (.ofWord word) = some fault ∧ m.step = (m.count, some fault)) ∨
    ∃ word, m.halted = false ∧ m.program[m.pc.toNat]? = some word ∧
      m.fault? word (.ofWord word) = none ∧ m.step = (m.count.execute (.ofWord word), none) := by
  cases halted : m.halted with
  | true => exact .inl ⟨rfl, step_of_halted halted⟩
  | false =>
    cases fetch : m.program[m.pc.toNat]? with
    | none => exact .inr (.inl ⟨rfl, rfl, step_of_end halted fetch⟩)
    | some word =>
      cases found : m.fault? word (.ofWord word) with
      | some fault =>
        exact .inr (.inr (.inl ⟨word, fault, rfl, rfl, found, step_of_fault halted fetch found⟩))
      | none => exact .inr (.inr (.inr ⟨word, rfl, rfl, found, step_of_word halted fetch found⟩))

/-- What it takes for a step to fail, and what becomes of the machine. -/
theorem exists_fault_of_step {m next : Machine} {fault : MachineFault}
    (step : m.step = (next, some fault)) :
    next = m.count ∧ ∃ word, m.halted = false ∧ m.program[m.pc.toNat]? = some word ∧
      m.fault? word (.ofWord word) = some fault := by
  rcases m.step_cases with ⟨-, h⟩ | ⟨-, -, h⟩ | ⟨word, reason, running, fetch, found, h⟩ |
    ⟨_, -, -, -, h⟩
  · cases step.symm.trans h
  · cases step.symm.trans h
  · cases step.symm.trans h
    exact ⟨rfl, word, running, fetch, found⟩
  · cases step.symm.trans h

/-- A computation that can be executed finds the cells that it needs. -/
theorem isMapped_of_fault?_eq_none {m : Machine} {word : Word} {memory : Bool} {control : Control}
    {dest : Destination} {jump : Jump}
    (fine : m.fault? word (.compute memory control dest jump) = none)
    (used : memory = true ∨ dest.m = true) : isMapped m.a = true := by
  by_contra unmapped
  rcases used with rfl | toM
  · simp [fault?, unmapped] at fine
  · cases memory <;> simp [fault?, unmapped, toM] at fine

/-- The machine after a computation, field by field. -/
theorem execute_compute (m : Machine) (memory : Bool) (control : Control) (dest : Destination)
    (jump : Jump) {out : Word}
    (h : out = control.apply m.d (if memory then m.memory[m.a.toNat]?.getD 0 else m.a)) :
    m.execute (.compute memory control dest jump) =
      { m with
        a := if dest.a then out else m.a
        d := if dest.d then out else m.d
        pc := if jump.holds out then m.a else m.pc + 1
        memory := if dest.m then m.memory.setIfInBounds m.a.toNat out else m.memory
        halted := m.halted || m.isIdle jump } := by
  rw [h, ← cell_eq]
  obtain ⟨toA, toD, toM⟩ := dest
  cases toM with
  | true => simp [execute, store_eq]
  | false => rfl

theorem program_execute (m : Machine) (format : Format) :
    (m.execute format).program = m.program := by
  cases format with
  | address value => rfl
  | reserved => rfl
  | compute memory control dest jump => rw [m.execute_compute memory control dest jump rfl]

theorem steps_execute (m : Machine) (format : Format) : (m.execute format).steps = m.steps := by
  cases format with
  | address value => rfl
  | reserved => rfl
  | compute memory control dest jump => rw [m.execute_compute memory control dest jump rfl]

/-- The condition that always holds does hold. -/
theorem holds_always (result : Word) : Jump.always.holds result = true := by
  simp [Jump.holds, Jump.always]

/-- An instruction that leaves a running machine halted jumps back, whatever it computes, to the word
right before it, and this word is equal to its own address. -/
theorem idle_of_halted_execute {m : Machine} {format : Format} (running : m.halted = false)
    (h : (m.execute format).halted = true) :
    ∃ memory control dest, format = .compute memory control dest .always ∧
      m.a.toNat + 1 = m.pc.toNat ∧ m.program[m.a.toNat]? = some m.a ∧
      (m.execute format).pc = m.a := by
  cases format with
  | address value => exact absurd (running.symm.trans h) Bool.false_ne_true
  | reserved => exact absurd (running.symm.trans h) Bool.false_ne_true
  | compute memory control dest jump =>
    rw [m.execute_compute memory control dest jump rfl] at h ⊢
    have idle : m.isIdle jump = true := by simpa [running] using h
    simp only [isIdle, Bool.and_eq_true, beq_iff_eq] at idle
    obtain ⟨⟨rfl, before⟩, self⟩ := idle
    exact ⟨memory, control, dest, rfl, before, self, if_pos (holds_always _)⟩

/-- The machine never changes its program. -/
theorem program_step (m : Machine) : m.step.1.program = m.program := by
  rcases m.step_cases with ⟨-, h⟩ | ⟨-, -, h⟩ | ⟨_, _, -, -, -, h⟩ | ⟨_, -, -, -, h⟩
  · rw [h]
  · rw [h]
  · rw [h]
    rfl
  · rw [h]
    exact m.count.program_execute _

theorem program_of_step {m next : Machine} {fault : Option MachineFault}
    (step : m.step = (next, fault)) : next.program = m.program := by
  rw [← m.program_step, step]

/-- The counter goes up by one in a step that finds a word, whether the step fails or not. -/
theorem steps_step (m : Machine) :
    m.step.1.steps =
      if m.halted = false ∧ m.pc.toNat < m.program.size then m.steps + 1 else m.steps := by
  rcases m.step_cases with ⟨halted, h⟩ | ⟨-, fetch, h⟩ | ⟨_, _, running, fetch, -, h⟩ |
    ⟨_, running, fetch, -, h⟩
  · rw [h, if_neg (by simp [halted])]
  · rw [h, if_neg (by simpa using fun _ => Array.getElem?_eq_none_iff.1 fetch)]
  · rw [h, if_pos ⟨running, (Array.getElem?_eq_some_iff.1 fetch).1⟩]
    rfl
  · rw [h, if_pos ⟨running, (Array.getElem?_eq_some_iff.1 fetch).1⟩, steps_execute]
    rfl

/-! ## Several steps -/

/-- The machine after some steps, failed or not. -/
def after (m : Machine) (n : Nat) : Machine := (fun m => m.step.1)^[n] m

@[simp] theorem after_zero (m : Machine) : m.after 0 = m := rfl

theorem after_succ (m : Machine) (n : Nat) : m.after (n + 1) = (m.after n).step.1 :=
  Function.iterate_succ_apply' _ n m

theorem program_after (m : Machine) (n : Nat) : (m.after n).program = m.program := by
  induction n with
  | zero => rfl
  | succ n ih => rw [after_succ, program_step, ih]

end Machine
end HackMachine
