import HackMachine.Proofs.Machine.Bounded

/-!
# Runs with a limit

The limit is compared with the instruction counter before each step, so what a run with a limit does is
decided by how many instructions the run without a limit executes.  The two ways of halting differ
here.  The idle loop halts within an instruction, and a run that may execute `k` instructions gets to
the end of one that takes exactly `k`.  Leaving the program is a step of its own: after `k`
instructions the limit is reached, and this step is not taken any more.  A run of exactly `k`
instructions that leaves the program is therefore reported as not having ended.

The two are told apart by the program counter of the machine at the end.  It is inside the program if
the machine has halted in the idle loop, and past its end otherwise.

* `InTime`: an end of the run without a limit that a limit allows for.
* `exists_run_limited`: a run with a limit always has a result, which is the end of the run without
  a limit if this is in time, and the report that the limit is reached otherwise.
* `run_limit_exact`: the same for each kind of result.
* `run_limit_hides_end`: a program that leaves at the limit.
-/

namespace HackMachine
namespace Machine

/-- An end after `n` instructions is in time if `left` instructions may be executed: there are fewer,
or there are exactly as many and no further step is needed to leave the program. -/
def InTime (left n : Nat) (final : Machine) (fault : Option MachineFault) : Prop :=
  n < left ∨ n = left ∧ (fault ≠ none ∨ final.pc.toNat < final.program.size)

section InTime

variable {left n : Nat} {final : Machine}

theorem inTime_none_iff : InTime left n final none ↔
    n < left ∨ n = left ∧ final.pc.toNat < final.program.size := by
  simp [InTime]

theorem inTime_some_iff {fault : MachineFault} : InTime left n final (some fault) ↔ n ≤ left := by
  simp [InTime, Nat.le_iff_lt_or_eq]

theorem inTime_succ_iff {fault : Option MachineFault} :
    InTime (left + 1) (n + 1) final fault ↔ InTime left n final fault := by
  simp only [InTime, Nat.succ_lt_succ_iff, Nat.add_right_cancel_iff]

end InTime

/-- How a run with a limit ends when `left` instructions may be executed: as the run without a limit
does, if this is in time, and else by the limit, right after these instructions. -/
def Limited (limit : Int64) (left : Nat) (m final : Machine) (fault : Option MachineFault) : Prop :=
  (∃ n, Ends m n final fault ∧ InTime left n final fault) ∨
    fault = some (.stepLimit limit) ∧ final = m.after left ∧
      ∀ n last reason, Ends m n last reason → ¬ InTime left n last reason

/-! ## One instruction -/

section Instruction

variable {limit : Int64} {m next : Machine} {word : Word}

theorem after_succ_of_step {fault : Option MachineFault} (step : m.step = (next, fault)) (n : Nat) :
    m.after (n + 1) = next.after n := by
  rw [after, Function.iterate_succ_apply, step]
  rfl

/-- As long as the limit is not reached, the counter counts. -/
theorem toInt_steps_of_step {left : Nat}
    (counted : m.steps.toInt + (left + 1 : Nat) = limit.toInt)
    (step : m.step = (m.count.execute (.ofWord word), none)) :
    m.step.1.steps.toInt + left = limit.toInt := by
  have below : m.steps.toInt < limit.toInt := by omega
  rw [step, steps_execute, count, toInt_add_one_of_lt below]
  omega

/-- An instruction that halts the machine leaves the program counter inside the program. -/
theorem pc_lt_of_halted_step (running : m.halted = false)
    (step : m.step = (m.count.execute (.ofWord word), none)) (halts : m.step.1.halted = true) :
    m.step.1.pc.toNat < m.step.1.program.size := by
  rw [program_step, step]
  rw [step] at halts
  obtain ⟨_, _, _, -, -, self, target⟩ := idle_of_halted_execute (m := m.count) running halts
  rw [target]
  exact (Array.getElem?_eq_some_iff.1 self).1

/-- An end after one more instruction. -/
theorem Limited.of_step {left : Nat} {final : Machine} {fault : Option MachineFault}
    (running : m.halted = false) (fetch : m.program[m.pc.toNat]? = some word)
    (step : m.step = (next, none)) (h : Limited limit left next final fault) :
    Limited limit (left + 1) m final fault := by
  rcases h with ⟨n, ends, inTime⟩ | ⟨isLimit, rfl, late⟩
  · exact .inl ⟨n + 1, .executes running fetch step ends, inTime_succ_iff.2 inTime⟩
  · refine .inr ⟨isLimit, (after_succ_of_step step left).symm, fun n last reason ends inTime => ?_⟩
    obtain ⟨k, rfl, rest⟩ := (ends_iff_of_step running fetch step).1 ends
    exact late k last reason rest (inTime_succ_iff.1 inTime)

end Instruction

/-! ## All instructions -/

section Limit

variable {limit : Int64} {m : Machine}

/-- With no instruction left, a running machine is stopped by the limit, and no end is in time. -/
theorem limited_zero (running : m.halted = false) :
    Limited limit 0 m m (some (.stepLimit limit)) := by
  refine .inr ⟨rfl, rfl, fun n last reason ends inTime => ?_⟩
  rcases inTime with fewer | ⟨rfl, further⟩
  · exact Nat.not_lt_zero n fewer
  · -- only leaving the program takes no instruction, and for this one more step is needed
    cases ends with
    | halted halted => exact absurd (running.symm.trans halted) Bool.false_ne_true
    | leaves _ fetch =>
      rcases further with fails | inside
      · exact fails rfl
      · exact absurd inside (Nat.not_lt.2 (Array.getElem?_eq_none_iff.1 fetch))

/-- A run with a limit has a result. -/
theorem exists_run_limited (positive : 0 < limit) {left : Nat}
    (counted : m.steps.toInt + left = limit.toInt)
    (inside : m.halted = true → m.pc.toNat < m.program.size) :
    ∃ fuel final fault, run limit fuel m = some (final, fault) ∧
      Limited limit left m final fault := by
  induction left generalizing m with
  | zero =>
    cases halted : m.halted with
    | true =>
      refine ⟨1, m, none, run_of_halted limit halted 0, .inl ⟨0, .halted halted, .inr ⟨rfl, ?_⟩⟩⟩
      exact .inr (inside halted)
    | false =>
      have reached : m.limitReached limit = true := (limitReached_iff positive).2 (by omega)
      exact ⟨1, m, _, run_of_limit halted reached 0, limited_zero halted⟩
  | succ left ih =>
    have within : m.limitReached limit = false :=
      (limitReached_eq_false_iff positive).2 (by omega)
    rcases m.step_cases with ⟨halted, -⟩ | ⟨running, fetch, step⟩ |
      ⟨word, reason, running, fetch, -, step⟩ | ⟨word, running, fetch, -, step⟩
    · exact ⟨1, m, none, run_of_halted limit halted 0,
        .inl ⟨0, .halted halted, .inl (Nat.succ_pos left)⟩⟩
    · refine ⟨2, _, none, ?_, .inl ⟨0, .leaves running fetch, .inl (Nat.succ_pos left)⟩⟩
      rw [run_of_step running within step]
      exact run_of_halted limit rfl 0
    · refine ⟨1, _, _, run_of_fault running within step 0, .inl ⟨1, .fails running fetch step, ?_⟩⟩
      rcases Nat.eq_zero_or_pos left with rfl | more
      · exact .inr ⟨rfl, .inl (Option.some_ne_none reason)⟩
      · exact .inl (Nat.succ_lt_succ more)
    · have counted' := toInt_steps_of_step counted step
      have inside' := pc_lt_of_halted_step running step
      rw [step] at counted' inside'
      obtain ⟨fuel, final, fault, ran, ends⟩ := ih counted' inside'
      refine ⟨fuel + 1, final, fault, ?_, ends.of_step running fetch step⟩
      rw [run_of_step running within step, ran]

end Limit

/-! ## Exactness -/

section Exact

variable {limit : Int64} {left : Nat} {m final : Machine} {fault : Option MachineFault}
  (positive : 0 < limit) (counted : m.steps.toInt + left = limit.toInt)
  (running : m.halted = false)
include positive counted running

/-- A run that is not stopped by the limit ends as the run without a limit does, and in time. -/
theorem run_iff_ends_inTime (other : fault ≠ some (.stepLimit limit)) :
    (∃ fuel, run limit fuel m = some (final, fault)) ↔
      ∃ n, Ends m n final fault ∧ InTime left n final fault := by
  obtain ⟨fuel, last, reason, ran, ⟨n, ends, inTime⟩ | ⟨isLimit, -, late⟩⟩ :=
    exists_run_limited positive counted fun halted =>
      absurd (running.symm.trans halted) Bool.false_ne_true
  · constructor
    · rintro ⟨fuel', ran'⟩
      cases run_unique ran ran'
      exact ⟨n, ends, inTime⟩
    · rintro ⟨n', ends', -⟩
      obtain ⟨-, rfl, rfl⟩ := ends.unique ends'
      exact ⟨fuel, ran⟩
  · constructor
    · rintro ⟨fuel', ran'⟩
      cases run_unique ran ran'
      exact absurd isLimit other
    · rintro ⟨n, ends, inTime⟩
      exact absurd inTime (late n final fault ends)

/-- A run is stopped by the limit if the run without a limit does not end in time. -/
theorem run_iff_limit :
    (∃ fuel, run limit fuel m = some (final, some (.stepLimit limit))) ↔
      final = m.after left ∧ ∀ n last reason, Ends m n last reason → ¬ InTime left n last reason := by
  obtain ⟨fuel, last, reason, ran, ⟨n, ends, inTime⟩ | ⟨rfl, rfl, late⟩⟩ :=
    exists_run_limited positive counted fun halted =>
      absurd (running.symm.trans halted) Bool.false_ne_true
  · constructor
    · rintro ⟨fuel', ran'⟩
      cases run_unique ran ran'
      exact absurd rfl (ends.ne_stepLimit limit)
    · rintro ⟨-, late⟩
      exact absurd inTime (late n last reason ends)
  · constructor
    · rintro ⟨fuel', ran'⟩
      cases run_unique ran ran'
      exact ⟨rfl, late⟩
    · rintro ⟨rfl, -⟩
      exact ⟨fuel, ran⟩

end Exact

/-- What a limit does to the run of a machine that has just been loaded.

* The run without a limit has a result exactly if it ends.
* With a limit, the run succeeds exactly if the one without a limit does, in the same state, and has
  executed fewer instructions than the limit, or as many as the limit and halts in the idle loop.
* It fails exactly if the one without a limit does, and this is one of the instructions up to the
  limit.
* It is stopped by the limit, after as many instructions as the limit says, exactly if the one
  without a limit executes more instructions than that, or as many and then leaves the program. -/
theorem run_limit_exact (program : Array Word) (memory : Vector Word memorySize) {limit : Int64}
    (positive : 0 < limit) {m : Machine} (fresh : m = { load program with memory := memory }) :
    (∀ final fault, (∃ fuel, run 0 fuel m = some (final, fault)) ↔ ∃ n, Ends m n final fault) ∧
    (∀ final, (∃ fuel, run limit fuel m = some (final, none)) ↔
      ∃ n : Nat, Ends m n final none ∧
        (n < limit.toInt ∨ n = limit.toInt ∧ final.pc.toNat < final.program.size)) ∧
    (∀ final fault, fault ≠ .stepLimit limit →
      ((∃ fuel, run limit fuel m = some (final, some fault)) ↔
        ∃ n : Nat, Ends m n final (some fault) ∧ n ≤ limit.toInt)) ∧
    ∀ final, (∃ fuel, run limit fuel m = some (final, some (.stepLimit limit))) ↔
      final = m.after limit.toInt.toNat ∧
        ∀ (n : Nat) last fault, Ends m n last fault → limit.toInt < n ∨
          n = limit.toInt ∧ fault = none ∧ last.program.size ≤ last.pc.toNat := by
  have above : 0 < limit.toInt := Int64.lt_iff_toInt_lt.1 positive
  obtain ⟨left, same⟩ := Int.eq_ofNat_of_zero_le (Int.le_of_lt above)
  have counted : m.steps.toInt + left = limit.toInt := by
    rw [fresh, same]
    exact Int.zero_add _
  have running : m.halted = false := by rw [fresh]; rfl
  refine ⟨fun final fault => exists_run_iff_ends (Int64.le_refl 0), fun final => ?_,
    fun final fault other => ?_, fun final => ?_⟩
  · have other : (none : Option MachineFault) ≠ some (.stepLimit limit) := nofun
    rw [run_iff_ends_inTime positive counted running other]
    refine exists_congr fun n => and_congr_right fun _ => ?_
    rw [inTime_none_iff]
    omega
  · rw [run_iff_ends_inTime positive counted running (by simpa using other)]
    refine exists_congr fun n => and_congr_right fun _ => ?_
    rw [inTime_some_iff]
    omega
  · rw [run_iff_limit positive counted running, same, Int.toNat_natCast]
    refine and_congr_right fun _ => forall₄_congr fun n last fault _ => ?_
    cases fault with
    | none =>
      rw [inTime_none_iff]
      simp only [true_and]
      omega
    | some reason =>
      rw [inTime_some_iff]
      simp only [reduceCtorEq, false_and, and_false, or_false]
      omega

/-- Two instructions are allowed, and the second one halts in the idle loop. -/
theorem run_limit_exact_idleLoop :
    (0 : Int64) < 2 ∧ ∃ final, Ends (load #[0, 0xEA87]) 2 final none ∧ final.pc = 0 ∧
      ∃ fuel, run 2 fuel (load #[0, 0xEA87]) = some (final, none) := by
  have positive : (0 : Int64) < 2 := by decide
  have ends : Ends (load #[0, 0xEA87]) 2 _ none :=
    .executes rfl rfl rfl (.executes rfl rfl rfl (.halted rfl))
  refine ⟨positive, _, ends, rfl, ?_⟩
  exact ((run_limit_exact #[0, 0xEA87] _ positive rfl).2.1 _).2 ⟨2, ends, .inr ⟨rfl, by decide⟩⟩

/-! ## The limit at the end of the program -/

/-- One instruction is allowed, and one is executed before the program is left.  The run is stopped by
the limit all the same. -/
theorem run_limit_hides_end :
    ∃ final, Ends (load #[0]) 1 final none ∧
      (∀ fuel, run 1 fuel (load #[0]) ≠ some (final, none)) ∧
      ∃ last, run 1 2 (load #[0]) = some (last, some (.stepLimit 1)) := by
  have ends : Ends (load #[0]) 1 _ none := .executes rfl rfl rfl (.leaves rfl rfl)
  have stopped : run 1 2 (load #[0]) = some ((load #[0]).step.1, some (.stepLimit 1)) := rfl
  refine ⟨_, ends, fun fuel ran => ?_, _, stopped⟩
  cases run_unique stopped ran

end Machine
end HackMachine
