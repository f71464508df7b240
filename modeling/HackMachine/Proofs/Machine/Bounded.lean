import HackMachine.Proofs.Machine.Run

/-!
# Runs with a limit come to an end

A turn of a run either executes an instruction, or sets the halted flag, or is the last one.
Nothing in this goes down in every turn: leaving the program does not count as an instruction, and a
counter of 64 bits can go round.  What makes a run with a positive limit end is that a turn is only
taken while the counter is below the limit.  Then adding one to it does not go round
(`toInt_add_one_of_lt`), so it comes nearer to the limit in every turn but the last two.

## The course of a run

`Visits` lists the machines that a run tests before each turn, and `Stops` the three ways in which
the test of such a machine ends the run.  The two together are what `run` does
(`Visits.exists_stops_of_run`, `Visits.exists_run_eq`), so a statement about all turns is an
induction over `Visits`, and a statement about the result is a case of `Stops`.

* `exists_run_within`: a run has a result within one turn more than the instructions it has left.
* `Visits.steps_le`: on the way the counter does not pass the limit.
* `run_bounded`: the result of a run with a positive limit.
-/

namespace HackMachine
namespace Machine

variable {limit : Int64} {m s final : Machine} {fault : Option MachineFault}

/-! ## The counter -/

/-- A counter that is below another number of 64 bits has room for one more. -/
theorem toInt_add_one_of_lt {n bound : Int64} (below : n.toInt < bound.toInt) :
    (n + 1).toInt = n.toInt + 1 := by
  have low := n.le_toInt
  have high := bound.toInt_lt
  rw [Int64.toInt_add, Int64.toInt_one]
  apply Int.bmod_eq_of_le
  · omega
  · omega

/-- In a turn of a run, the counter goes up by one if there is a word to execute. -/
theorem toInt_steps_step (positive : 0 < limit) (running : s.halted = false)
    (within : s.limitReached limit = false) :
    s.step.1.steps.toInt = s.steps.toInt + if s.pc.toNat < s.program.size then 1 else 0 := by
  rw [steps_step, running]
  by_cases inside : s.pc.toNat < s.program.size
  · rw [if_pos ⟨rfl, inside⟩, if_pos inside]
    exact toInt_add_one_of_lt ((limitReached_eq_false_iff positive).1 within)
  · rw [if_neg fun both => inside both.2, if_neg inside, Int.add_zero]

/-! ## The course of a run -/

/-- The machines that a run with a limit, started with `m`, comes to before each of its turns. -/
inductive Visits (limit : Int64) (m : Machine) : Machine → Prop where
  | start : Visits limit m m
  | next {s next : Machine} (before : Visits limit m s) (running : s.halted = false)
      (within : s.limitReached limit = false) (step : s.step = (next, none)) : Visits limit m next

/-- How a run with a limit ends when it has come to the first machine: it returns the second one,
and a fault if there is one. -/
inductive Stops (limit : Int64) : Machine → Machine → Option MachineFault → Prop where
  | halted {s : Machine} (halted : s.halted = true) : Stops limit s s none
  | limit {s : Machine} (running : s.halted = false) (reached : s.limitReached limit = true) :
      Stops limit s s (some (.stepLimit limit))
  | fails {s next : Machine} {fault : MachineFault} (running : s.halted = false)
      (within : s.limitReached limit = false) (step : s.step = (next, some fault)) :
      Stops limit s next (some fault)

/-- From a machine that a run comes to, the run goes on as if it had been started there. -/
theorem Visits.exists_run_eq (h : Visits limit m s) :
    ∃ used, ∀ left, run limit (used + left) m = run limit left s := by
  induction h with
  | start => exact ⟨0, fun left => by rw [Nat.zero_add]⟩
  | next _ running within step ih =>
    obtain ⟨used, same⟩ := ih
    refine ⟨used + 1, fun left => ?_⟩
    rw [Nat.add_assoc, Nat.add_comm 1 left, same, run_of_step running within step]

/-- A run that has a result stops at a machine that it comes to. -/
theorem Visits.exists_stops_of_run (before : Visits limit m s) {fuel : Nat}
    (h : run limit fuel s = some (final, fault)) :
    ∃ last, Visits limit m last ∧ Stops limit last final fault := by
  induction fuel generalizing s with
  | zero => cases h
  | succ fuel ih =>
    cases halted : s.halted with
    | true =>
      rw [run_of_halted limit halted] at h
      cases h
      exact ⟨_, before, .halted halted⟩
    | false =>
      cases reached : s.limitReached limit with
      | true =>
        rw [run_of_limit halted reached] at h
        cases h
        exact ⟨_, before, .limit halted reached⟩
      | false =>
        rcases step : s.step with ⟨next, _ | reason⟩
        · rw [run_of_step halted reached step] at h
          exact ih (before.next halted reached step) h
        · rw [run_of_fault halted reached step] at h
          cases h
          exact ⟨s, before, .fails halted reached step⟩

/-! ## Termination -/

/-- A run with a positive limit has a result within as many turns as there are instructions left,
and one more. -/
theorem exists_run_within (positive : 0 < limit) {left : Nat} (m : Machine)
    (enough : limit.toInt - m.steps.toInt ≤ left) :
    ∃ final fault, run limit (left + 1) m = some (final, fault) := by
  induction left generalizing m with
  | zero =>
    cases halted : m.halted with
    | true => exact ⟨m, none, run_of_halted limit halted 0⟩
    | false =>
      have reached : m.limitReached limit = true := (limitReached_iff positive).2 (by omega)
      exact ⟨m, _, run_of_limit halted reached 0⟩
  | succ left ih =>
    cases reached : m.limitReached limit with
    | true =>
      cases halted : m.halted with
      | true => exact ⟨m, none, run_of_halted limit halted _⟩
      | false => exact ⟨m, _, run_of_limit halted reached _⟩
    | false =>
      rcases m.step_cases with ⟨halted, -⟩ | ⟨running, -, step⟩ |
        ⟨_, reason, running, -, -, step⟩ | ⟨word, running, fetch, -, step⟩
      · exact ⟨m, none, run_of_halted limit halted _⟩
      · -- the turn after this one finds the flag set
        refine ⟨{ m with halted := true }, none, ?_⟩
        rw [run_of_step running reached step]
        exact run_of_halted limit rfl left
      · exact ⟨m.count, some reason, run_of_fault running reached step _⟩
      · have counted := toInt_steps_step positive running reached
        simp only [step, (Array.getElem?_eq_some_iff.1 fetch).1, if_true] at counted
        rw [run_of_step running reached step]
        exact ih _ (by omega)

/-! ## The result -/

/-- The counter of a machine on the way is not past the limit, unless it was so at the start. -/
theorem Visits.steps_le (positive : 0 < limit) (h : Visits limit m s) :
    s.steps.toInt ≤ max limit.toInt m.steps.toInt := by
  induction h with
  | start => exact Int.le_max_right _ _
  | @next s next _ running within step _ =>
    have counted := toInt_steps_step positive running within
    have below := (limitReached_eq_false_iff positive).1 within
    simp only [step] at counted
    split at counted <;> omega

theorem Stops.steps_le (positive : 0 < limit) (visits : Visits limit m s)
    (h : Stops limit s final fault) : final.steps.toInt ≤ max limit.toInt m.steps.toInt := by
  cases h with
  | halted | limit => exact visits.steps_le positive
  | fails running within step =>
    have counted := toInt_steps_step positive running within
    have below := (limitReached_eq_false_iff positive).1 within
    simp only [step] at counted
    split at counted <;> omega

theorem Stops.halted_of_none (h : Stops limit s final none) : final.halted = true := by
  cases h with
  | halted halted => exact halted

/-- The report that a limit is reached is about the limit of the run, and comes with a machine that
has not halted. -/
theorem Stops.of_stepLimit {k : Int64} (h : Stops limit s final (some (.stepLimit k))) :
    k = limit ∧ final.halted = false ∧ final.limitReached limit = true := by
  cases h with
  | limit running reached => exact ⟨rfl, running, reached⟩
  | fails _ _ step => exact absurd rfl (ne_stepLimit_of_step step k)

/-- A run with a positive limit ends, whatever machine it is started with.

* It takes at most one turn more than the counter is away from the limit.
* The machines that it visits lie on its way, and in a turn that it takes from one of them the
  counter goes up by one if there is a word to execute, and stays as it is otherwise; it never goes
  round.
* At the end the counter is not past the limit, unless it was so at the start, and then it has not
  gone any further.
* A run without a fault ends with a machine that has halted.
* A run that is stopped by a limit is stopped by its own, with a machine that has not halted and a
  counter that has reached it. -/
theorem run_bounded (positive : 0 < limit) (m : Machine) :
    ∃ final fault, run limit ((limit.toInt - m.steps.toInt).toNat + 1) m = some (final, fault) ∧
      (∀ s, Visits limit m s → (∃ used, ∀ left, run limit (used + left) m = run limit left s) ∧
        (s.halted = false → s.limitReached limit = false → s.step.1.steps.toInt =
          s.steps.toInt + if s.pc.toNat < s.program.size then 1 else 0)) ∧
      final.steps.toInt ≤ max limit.toInt m.steps.toInt ∧
      (fault = none → final.halted = true) ∧
      ∀ k, fault = some (.stepLimit k) →
        k = limit ∧ final.halted = false ∧ limit ≤ final.steps := by
  obtain ⟨final, fault, ran⟩ :=
    exists_run_within positive m (Int.self_le_toNat (limit.toInt - m.steps.toInt))
  obtain ⟨last, visits, stops⟩ := Visits.start.exists_stops_of_run ran
  refine ⟨final, fault, ran, ?_, stops.steps_le positive visits, ?_, ?_⟩
  · intro s visited
    exact ⟨visited.exists_run_eq, toInt_steps_step positive⟩
  · rintro rfl
    exact stops.halted_of_none
  · rintro k rfl
    obtain ⟨same, running, reached⟩ := stops.of_stepLimit
    exact ⟨same, running, Int64.le_iff_toInt_le.2 ((limitReached_iff positive).1 reached)⟩

/-- The limit is the greatest there is, and the counter is one below it.  There is room for one of
the two instructions. -/
theorem run_bounded_greatestLimit :
    (0 : Int64) < Int64.maxValue ∧
      ∃ final fault,
        run Int64.maxValue 2 { load #[0, 0] with steps := Int64.maxValue - 1 } =
          some (final, fault) ∧
        fault = some (.stepLimit Int64.maxValue) ∧ final.halted = false ∧
        final.steps = Int64.maxValue ∧ Int64.maxValue ≤ final.steps := by
  have positive : (0 : Int64) < Int64.maxValue := by decide
  obtain ⟨final, fault, ran, -, -, -, stopped⟩ :=
    run_bounded positive { load #[0, 0] with steps := Int64.maxValue - 1 }
  have one : run Int64.maxValue 2 { load #[0, 0] with steps := Int64.maxValue - 1 } =
      some (_, some (.stepLimit Int64.maxValue)) := rfl
  cases run_unique one ran
  obtain ⟨-, running, reached⟩ := stopped _ rfl
  exact ⟨positive, _, _, one, rfl, running, rfl, reached⟩

end Machine
end HackMachine
