import HackMachine.Proofs.Machine.Limit

/-!
# Runs that are interrupted by their limit

A limit is only compared with the instruction counter.  It does not change the machine, and a limit
that is not reached might as well not be there.  So a run can be cut in two: the first part ends at
its limit, and the second goes on from there under a wider limit, which may also be none.

## Wider limits

A limit is wider than a positive one if it is not smaller or if it is not positive, and so no limit
at all.  What the wider limit stops, the other one stops too (`limitReached_of_wider`).  As long as
the narrow limit is not reached, both runs make the same steps, and there are two ways for this to
end:

* the narrow run halts or fails, and then the wide run does so too, in the same state;
* the narrow run is stopped, and then the wide run has only come to the state in which this
  happened.

`run_of_wider` says this with the fuel that the wide run has used by then.  A run with a positive
limit always gets to one of the two (`exists_run_of_positive`).
-/

namespace HackMachine
namespace Machine

variable {limit wider : Int64} {m : Machine}

/-- Where a limit is not reached, a wider one is not reached either. -/
theorem limitReached_of_wider (positive : 0 < limit) (isWider : limit ≤ wider ∨ wider ≤ 0)
    (within : m.limitReached limit = false) : m.limitReached wider = false := by
  rcases isWider with above | none
  · rw [limitReached_eq_false_iff positive] at within
    rw [Int64.le_iff_toInt_le] at above
    rw [Int64.lt_iff_toInt_lt] at positive
    have positive' : 0 < wider := Int64.lt_iff_toInt_lt.2 (Int.lt_of_lt_of_le positive above)
    exact (limitReached_eq_false_iff positive').2 (Int.lt_of_lt_of_le within above)
  · exact limitReached_of_nonpos none m

/-- What the end of a run says about a run with a wider limit.  If the run was not stopped by its
limit, the wider one ends in the same way.  If it was, the wider one has got there too, with some of
its fuel, and the machine has to go on from there. -/
theorem run_of_wider (positive : 0 < limit) (isWider : limit ≤ wider ∨ wider ≤ 0) {fuel : Nat}
    {final : Machine} {fault : Option MachineFault} (h : run limit fuel m = some (final, fault)) :
    (fault ≠ some (.stepLimit limit) ∧ run wider fuel m = some (final, fault)) ∨
      (fault = some (.stepLimit limit) ∧
        ∃ used, ∀ left, run wider (used + left) m = run wider left final) := by
  induction fuel generalizing m with
  | zero => cases h
  | succ fuel ih =>
    cases halted : m.halted with
    | true =>
      rw [run_of_halted limit halted] at h
      cases h
      exact .inl ⟨(Option.some_ne_none _).symm, run_of_halted wider halted fuel⟩
    | false =>
      cases reached : m.limitReached limit with
      | true =>
        rw [run_of_limit halted reached] at h
        cases h
        refine .inr ⟨rfl, 0, fun left => ?_⟩
        rw [Nat.zero_add]
      | false =>
        have within := limitReached_of_wider positive isWider reached
        rcases step : m.step with ⟨next, _ | reason⟩
        · rw [run_of_step halted reached step] at h
          rcases ih h with ⟨other, ran⟩ | ⟨isLimit, used, ran⟩
          · refine .inl ⟨other, ?_⟩
            rw [run_of_step halted within step, ran]
          · refine .inr ⟨isLimit, used + 1, fun left => ?_⟩
            rw [Nat.add_right_comm, run_of_step halted within step, ran]
        · rw [run_of_fault halted reached step] at h
          cases h
          refine .inl ⟨?_, run_of_fault halted within step fuel⟩
          exact fun same => ne_stepLimit_of_step step limit (Option.some.inj same)

/-- A run with a positive limit comes to an end, whatever the state it starts in. -/
theorem exists_run_of_positive (positive : 0 < limit) (m : Machine) :
    ∃ fuel final fault, run limit fuel m = some (final, fault) :=
  ⟨_, exists_run_within positive m (Int.self_le_toNat (limit.toInt - m.steps.toInt))⟩

/-- A run with a positive limit ends, and what a run with a wider limit does follows from its end.

* If it was stopped by its limit, the wider run has the same result whether it is started where the
  narrow run was started or where it was stopped; if one of the two goes on for ever, so does the
  other.
* If it has halted or failed, the wider run ends with the same result, in the same state. -/
theorem run_resumes (positive : 0 < limit) (isWider : limit ≤ wider ∨ wider ≤ 0) (m : Machine) :
    (∃ fuel final fault, run limit fuel m = some (final, fault)) ∧
    (∀ fuel stopped, run limit fuel m = some (stopped, some (.stepLimit limit)) →
      ∀ result, (∃ fuel, run wider fuel stopped = some result) ↔
        ∃ fuel, run wider fuel m = some result) ∧
    ∀ fuel final fault, run limit fuel m = some (final, fault) →
      fault ≠ some (.stepLimit limit) → ∃ fuel, run wider fuel m = some (final, fault) := by
  refine ⟨exists_run_of_positive positive m, ?_, ?_⟩
  · intro fuel stopped ran result
    rcases run_of_wider positive isWider ran with ⟨other, -⟩ | ⟨-, used, resumed⟩
    · exact absurd rfl other
    · constructor
      · rintro ⟨left, rest⟩
        exact ⟨used + left, (resumed left).trans rest⟩
      · rintro ⟨whole, rest⟩
        -- fuel that is not needed does no harm, and with more of it the first part is done
        exact ⟨whole, (resumed whole).symm.trans (run_mono (Nat.le_add_left whole used) rest)⟩
  · intro fuel final fault ran other
    rcases run_of_wider positive isWider ran with ⟨-, same⟩ | ⟨isLimit, -⟩
    · exact ⟨fuel, same⟩
    · exact absurd isLimit other

/-- The two instructions of the idle loop.  The first run is stopped between them, and the second
one, without a limit, halts as if it had been alone. -/
theorem run_resumes_idleLoop :
    (0 : Int64) < 1 ∧ ∃ stopped final,
      run 1 2 (load #[0, 0xEA87]) = some (stopped, some (.stepLimit 1)) ∧ stopped.pc = 1 ∧
      run 0 3 (load #[0, 0xEA87]) = some (final, none) ∧
      ∃ fuel, run 0 fuel stopped = some (final, none) := by
  have positive : (0 : Int64) < 1 := by decide
  have stops : run 1 2 (load #[0, 0xEA87]) = some (_, some (.stepLimit 1)) := rfl
  have halts : run 0 3 (load #[0, 0xEA87]) = some (_, none) := rfl
  refine ⟨positive, _, _, stops, rfl, halts, ?_⟩
  obtain ⟨-, resumes, -⟩ :=
    run_resumes positive (.inr (Int64.le_refl 0)) (load #[0, 0xEA87])
  exact (resumes 2 _ stops _).2 ⟨3, halts⟩

end Machine
end HackMachine
