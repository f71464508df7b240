import HackMachine.Machine.Step
import HackMachine.Proofs.Machine.Step

/-!
# Runs

`run` counts fuel, one unit for each test of the halted flag.  Fuel is no part of what a run does:
more of it gives the same result (`run_mono`), so a machine has at most one result (`run_unique`).

`Ends` is the run without a limit, told by what happens to the machine and without fuel.  It says in
addition how many instructions are executed.  This is a natural number; the counter of the machine has
64 bits, and a run that is long enough takes it through zero again.

* `run_of_halted`, `run_of_limit`, `run_of_fault`, `run_of_step`: the four ways a run goes on.
* `ends_iff_of_halted`, `ends_iff_of_leaves`, `ends_iff_of_fault`, `ends_iff_of_step`: the same for
  `Ends`.
* `exists_run_iff_ends`: a run without a limit has a result exactly if it ends.
-/

namespace HackMachine
namespace Machine

/-! ## Fuel -/

section Fuel

variable {limit : Int64} {m next : Machine} {fuel : Nat}

theorem run_of_halted (limit : Int64) (halted : m.halted = true) (fuel : Nat) :
    run limit (fuel + 1) m = some (m, none) := by
  simp [run, halted]

variable (running : m.halted = false)
include running

theorem run_of_limit (reached : m.limitReached limit = true) (fuel : Nat) :
    run limit (fuel + 1) m = some (m, some (.stepLimit limit)) := by
  simp [run, running, reached]

variable (within : m.limitReached limit = false)
include within

theorem run_of_fault {fault : MachineFault} (step : m.step = (next, some fault)) (fuel : Nat) :
    run limit (fuel + 1) m = some (next, some fault) := by
  simp [run, running, within, step]

theorem run_of_step (step : m.step = (next, none)) (fuel : Nat) :
    run limit (fuel + 1) m = run limit fuel next := by
  simp [run, running, within, step]

end Fuel

variable {limit : Int64} {m next : Machine}

/-- More fuel gives the same result. -/
theorem run_mono {fuel more : Nat} {result : Machine × Option MachineFault} (le : fuel ≤ more)
    (h : run limit fuel m = some result) : run limit more m = some result := by
  induction fuel generalizing m more with
  | zero => cases h
  | succ fuel ih =>
    obtain ⟨more, rfl⟩ : ∃ k, more = k + 1 := ⟨more - 1, by omega⟩
    cases halted : m.halted with
    | true =>
      rw [run_of_halted limit halted] at h ⊢
      exact h
    | false =>
      cases reached : m.limitReached limit with
      | true =>
        rw [run_of_limit halted reached] at h ⊢
        exact h
      | false =>
        rcases step : m.step with ⟨next, _ | fault⟩
        · rw [run_of_step halted reached step] at h ⊢
          exact ih (Nat.le_of_succ_le_succ le) h
        · rw [run_of_fault halted reached step] at h ⊢
          exact h

/-- A run has at most one result. -/
theorem run_unique {fuel fuel' : Nat} {result result' : Machine × Option MachineFault}
    (h : run limit fuel m = some result) (h' : run limit fuel' m = some result') :
    result = result' := by
  have long := run_mono (Nat.le_max_left fuel fuel') h
  have long' := run_mono (Nat.le_max_right fuel fuel') h'
  exact Option.some.inj (long.symm.trans long')

/-! ## The end of a run without a limit -/

/-- The run without a limit, started with the first machine, ends with the second and reports the
fault, if there is one.  In between it executes the given number of instructions, where an
instruction that fails counts and leaving the program does not. -/
inductive Ends : Machine → Nat → Machine → Option MachineFault → Prop where
  | halted {m : Machine} (halted : m.halted = true) : Ends m 0 m none
  | leaves {m : Machine} (running : m.halted = false)
      (fetch : m.program[m.pc.toNat]? = none) : Ends m 0 { m with halted := true } none
  | fails {m next : Machine} {word : Word} {fault : MachineFault} (running : m.halted = false)
      (fetch : m.program[m.pc.toNat]? = some word) (step : m.step = (next, some fault)) :
      Ends m 1 next (some fault)
  | executes {m next final : Machine} {word : Word} {n : Nat} {fault : Option MachineFault}
      (running : m.halted = false) (fetch : m.program[m.pc.toNat]? = some word)
      (step : m.step = (next, none)) (rest : Ends next n final fault) :
      Ends m (n + 1) final fault

section Ends

variable {n : Nat} {final : Machine} {fault : Option MachineFault} {word : Word}

theorem ends_iff_of_halted (halted : m.halted = true) :
    Ends m n final fault ↔ n = 0 ∧ final = m ∧ fault = none := by
  constructor
  · intro h
    cases h with
    | halted => exact ⟨rfl, rfl, rfl⟩
    | leaves running | fails running | executes running =>
      exact absurd (running.symm.trans halted) Bool.false_ne_true
  · rintro ⟨rfl, rfl, rfl⟩
    exact .halted halted

variable (running : m.halted = false)
include running

theorem ends_iff_of_leaves (fetch : m.program[m.pc.toNat]? = none) :
    Ends m n final fault ↔ n = 0 ∧ final = { m with halted := true } ∧ fault = none := by
  constructor
  · intro h
    cases h with
    | halted halted => exact absurd (running.symm.trans halted) Bool.false_ne_true
    | leaves => exact ⟨rfl, rfl, rfl⟩
    | fails _ fetch' | executes _ fetch' => cases fetch.symm.trans fetch'
  · rintro ⟨rfl, rfl, rfl⟩
    exact .leaves running fetch

variable (fetch : m.program[m.pc.toNat]? = some word)
include fetch

theorem ends_iff_of_fault {reason : MachineFault} (step : m.step = (next, some reason)) :
    Ends m n final fault ↔ n = 1 ∧ final = next ∧ fault = some reason := by
  constructor
  · intro h
    cases h with
    | halted halted => exact absurd (running.symm.trans halted) Bool.false_ne_true
    | leaves _ fetch' => cases fetch.symm.trans fetch'
    | fails _ _ step' =>
      cases step.symm.trans step'
      exact ⟨rfl, rfl, rfl⟩
    | executes _ _ step' => cases step.symm.trans step'
  · rintro ⟨rfl, rfl, rfl⟩
    exact .fails running fetch step

theorem ends_iff_of_step (step : m.step = (next, none)) :
    Ends m n final fault ↔ ∃ k, n = k + 1 ∧ Ends next k final fault := by
  constructor
  · intro h
    cases h with
    | halted halted => exact absurd (running.symm.trans halted) Bool.false_ne_true
    | leaves _ fetch' => cases fetch.symm.trans fetch'
    | fails _ _ step' => cases step.symm.trans step'
    | executes _ _ step' rest =>
      cases step.symm.trans step'
      exact ⟨_, rfl, rest⟩
  · rintro ⟨k, rfl, rest⟩
    exact .executes running fetch step rest

end Ends

/-- A run without a limit has one end. -/
theorem Ends.unique {n n' : Nat} {final final' : Machine} {fault fault' : Option MachineFault}
    (h : Ends m n final fault) (h' : Ends m n' final' fault') :
    n = n' ∧ final = final' ∧ fault = fault' := by
  induction h generalizing n' with
  | halted halted =>
    obtain ⟨rfl, rfl, rfl⟩ := (ends_iff_of_halted halted).1 h'
    exact ⟨rfl, rfl, rfl⟩
  | leaves running fetch =>
    obtain ⟨rfl, rfl, rfl⟩ := (ends_iff_of_leaves running fetch).1 h'
    exact ⟨rfl, rfl, rfl⟩
  | fails running fetch step =>
    obtain ⟨rfl, rfl, rfl⟩ := (ends_iff_of_fault running fetch step).1 h'
    exact ⟨rfl, rfl, rfl⟩
  | executes running fetch step rest ih =>
    obtain ⟨k, rfl, rest'⟩ := (ends_iff_of_step running fetch step).1 h'
    obtain ⟨rfl, same⟩ := ih rest'
    exact ⟨rfl, same⟩

/-- The machine fails for its own reasons and knows of no limit. -/
theorem fault?_ne_stepLimit (m : Machine) (word : Word) (format : Format) (limit : Int64) :
    m.fault? word format ≠ some (.stepLimit limit) := by
  intro h
  unfold fault? at h
  split at h
  · cases h
  · cases h
  · split at h
    · cases h
    · split at h
      · cases h
      · split at h <;> cases h

/-- A step fails for reasons of the machine, and not because of a limit. -/
theorem ne_stepLimit_of_step {fault : MachineFault} (step : m.step = (next, some fault))
    (limit : Int64) : fault ≠ .stepLimit limit := by
  obtain ⟨-, word, -, -, found⟩ := exists_fault_of_step step
  rintro rfl
  exact m.fault?_ne_stepLimit _ _ limit found

/-- What ends a run without a limit is not a limit. -/
theorem Ends.ne_stepLimit {n : Nat} {final : Machine} {fault : Option MachineFault}
    (h : Ends m n final fault) (limit : Int64) : fault ≠ some (.stepLimit limit) := by
  induction h with
  | halted | leaves => exact nofun
  | executes _ _ _ _ ih => exact ih
  | fails _ _ step => exact fun same => ne_stepLimit_of_step step limit (Option.some.inj same)

/-! ## The result of a run without a limit -/

/-- A limit that is not positive is no limit. -/
theorem limitReached_of_nonpos (none : limit ≤ 0) (m : Machine) : m.limitReached limit = false := by
  have : ¬ 0 < limit := by
    rw [Int64.lt_iff_toInt_lt]
    rw [Int64.le_iff_toInt_le] at none
    omega
  simp [limitReached, this]

/-- A positive limit is compared with the counter. -/
theorem limitReached_iff (positive : 0 < limit) :
    m.limitReached limit = true ↔ limit.toInt ≤ m.steps.toInt := by
  simp [limitReached, positive, Int64.le_iff_toInt_le]

theorem limitReached_eq_false_iff (positive : 0 < limit) :
    m.limitReached limit = false ↔ m.steps.toInt < limit.toInt := by
  rw [← Bool.not_eq_true, limitReached_iff positive, Int.not_le]

theorem Ends.exists_run (none : limit ≤ 0) {n : Nat} {final : Machine}
    {fault : Option MachineFault} (h : Ends m n final fault) :
    ∃ fuel, run limit fuel m = some (final, fault) := by
  induction h with
  | halted halted => exact ⟨1, run_of_halted limit halted 0⟩
  | leaves running fetch =>
    -- one step sets the flag, and the next test finds it
    refine ⟨2, ?_⟩
    rw [run_of_step running (limitReached_of_nonpos none _) (step_of_end running fetch)]
    exact run_of_halted limit rfl 0
  | fails running fetch step =>
    exact ⟨1, run_of_fault running (limitReached_of_nonpos none _) step 0⟩
  | executes running fetch step _ ih =>
    obtain ⟨fuel, ran⟩ := ih
    refine ⟨fuel + 1, ?_⟩
    rw [run_of_step running (limitReached_of_nonpos none _) step, ran]

theorem exists_ends_of_run (none : limit ≤ 0) {fuel : Nat} {final : Machine}
    {fault : Option MachineFault} (h : run limit fuel m = some (final, fault)) :
    ∃ n, Ends m n final fault := by
  induction fuel generalizing m with
  | zero => cases h
  | succ fuel ih =>
    have within := limitReached_of_nonpos none m
    rcases m.step_cases with ⟨halted, -⟩ | ⟨running, fetch, step⟩ |
      ⟨word, reason, running, fetch, -, step⟩ | ⟨word, running, fetch, -, step⟩
    · rw [run_of_halted limit halted] at h
      cases h
      exact ⟨0, .halted halted⟩
    · rw [run_of_step running within step] at h
      obtain ⟨n, rest⟩ := ih h
      obtain ⟨rfl, rfl, rfl⟩ := (ends_iff_of_halted rfl).1 rest
      exact ⟨0, .leaves running fetch⟩
    · rw [run_of_fault running within step] at h
      cases h
      exact ⟨1, .fails running fetch step⟩
    · rw [run_of_step running within step] at h
      obtain ⟨n, rest⟩ := ih h
      exact ⟨n + 1, .executes running fetch step rest⟩

/-- A run without a limit has a result exactly if it ends. -/
theorem exists_run_iff_ends (none : limit ≤ 0) {final : Machine} {fault : Option MachineFault} :
    (∃ fuel, run limit fuel m = some (final, fault)) ↔ ∃ n, Ends m n final fault :=
  ⟨fun ⟨_, h⟩ => exists_ends_of_run none h, fun ⟨_, h⟩ => h.exists_run none⟩

end Machine
end HackMachine
