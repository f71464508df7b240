import HackMachine.Proofs.Machine.Access
import HackMachine.Proofs.Machine.Bounded

/-!
# Every access finds its place

The program and the memory are looked up by number, and a number may be too large.  `step` looks
things up in a way that says so if there is nothing to be found.  A machine that goes to a place
directly has to know beforehand that the place exists, or else it breaks down.

`Trail` is what comes of going to places directly.  It keeps a record of the places, and has no
value if one of them does not exist.  With the access `Access.trail` a step does what `step` does, so
it does not break down (`Access.trail_step_eq`).  All its places exist (`inRange_places`): the word at
the program counter; the cell that `A` points to, for an instruction that needs it and can be
executed; and the word right before the program counter.  What holds of a step carries over to runs
(`Trail.succeeds_run`).

Nothing is assumed of the registers and the memory.  The program is the one that was loaded, since
none of the things that can be done to a machine, which `Reached` lists, changes it
(`Reached.program_eq`).  `machine_stays_in_range` is about all machines that can be reached.
-/

namespace HackMachine

/-! ## Trails -/

/-- What comes of going from place to place without asking whether the next one exists: the places,
and what is found in the end.  At a place that does not exist the trail breaks off without a value. -/
structure Trail (α : Type) where
  places : List Place
  value : Option α

namespace Trail

variable {α β : Type}

instance : Monad Trail where
  pure value := ⟨[], some value⟩
  bind x next :=
    match x.value with
    | none => ⟨x.places, none⟩
    | some value => ⟨x.places ++ (next value).places, (next value).value⟩

theorem bind_some (places : List Place) (value : α) (next : α → Trail β) :
    (⟨places, some value⟩ : Trail α) >>= next =
      ⟨places ++ (next value).places, (next value).value⟩ := rfl

theorem bind_pure_self (x : Trail α) : x >>= pure = x := by
  rcases x with ⟨places, _ | value⟩
  · rfl
  · rw [bind_some]
    exact congrArg (mk · (some value)) (List.append_nil places)

theorem bind_bind {γ : Type} (x : Trail α) (next : α → Trail β) (last : β → Trail γ) :
    x >>= next >>= last = x >>= fun value => next value >>= last := by
  rcases x with ⟨places, _ | value⟩
  · rfl
  · rw [bind_some, bind_some]
    rcases next value with ⟨more, _ | result⟩
    · rfl
    · simp only [bind_some, List.append_assoc]

instance : LawfulMonad Trail :=
  LawfulMonad.mk' Trail bind_pure_self (fun _ _ => rfl) bind_bind

/-- Go to a place that exists. -/
def visit (place : Place) : Trail Unit := ⟨[place], some ()⟩

theorem forM_visit (places : List Place) : forM places visit = ⟨places, some ()⟩ := by
  induction places with
  | nil => rfl
  | cons place places ih =>
    rw [List.forM_cons, ih]
    rfl

theorem visit_all (places : List Place) (value : α) :
    (do forM places visit; return value) = (⟨places, some value⟩ : Trail α) := by
  rw [forM_visit, bind_some]
  exact congrArg (mk · (some value)) (List.append_nil places)

end Trail

namespace Access

/-- Going to places directly. -/
def trail : Access Trail where
  word m index := ⟨[.program index], m.program[index]?⟩
  cell m index := ⟨[.memory index], m.memory[index]?⟩
  setCell m index value :=
    ⟨[.memory index],
      if h : index < memorySize then some { m with memory := m.memory.set index value h } else none⟩

theorem trail_visits : trail.Visits Trail.visit where
  word m index inside := by
    show (⟨[.program index], m.program[index]?⟩ : Trail Word) = _
    rw [Array.getElem?_eq_getElem inside]
    rfl
  cell m address mapped := by
    have inside : address.toNat < memorySize := Machine.isMapped_iff.1 mapped
    show (⟨[.memory address.toNat], m.memory[address.toNat]?⟩ : Trail Word) = _
    rw [Vector.getElem?_eq_getElem inside, Machine.cell, dif_pos inside]
    rfl
  setCell m address value mapped := by
    have inside : address.toNat < memorySize := Machine.isMapped_iff.1 mapped
    rw [Machine.store, dif_pos inside]
    exact congrArg (Trail.mk [.memory address.toNat]) (dif_pos inside)

/-- A step that goes to its places directly does what a step does. -/
theorem trail_step_eq (m : Machine) : trail.step m = ⟨m.places, some m.step⟩ := by
  rw [trail_visits.step_eq, Trail.visit_all]

-- the jump of the usual idle loop looks at the word before it
example : (trail.step (Machine.load #[0, 0xEA87]).step.1).places = [.program 1, .program 0] := rfl

end Access

/-! ## The places of a step exist -/

/-- Whether there is such a place, in a machine with the given program. -/
def Place.InRange (program : Array Word) : Place → Prop
  | .program index => index < program.size
  | .memory index => index < memorySize

/-- The trail ends with this value, and all its places exist. -/
def Trail.Succeeds {α : Type} (program : Array Word) (x : Trail α) (value : α) : Prop :=
  x.value = some value ∧ ∀ place ∈ x.places, place.InRange program

namespace Machine

variable {m : Machine}

/-- What stands right before a word of the program is in the program. -/
theorem inRange_lookBack {program : Array Word} {pc : Word} (inside : pc.toNat < program.size)
    (target : Word) (jump : Jump) : ∀ place ∈ lookBack pc target jump, place.InRange program := by
  intro place member
  unfold lookBack at member
  by_cases looks : target.toNat + 1 = pc.toNat ∧ jump = .always
  · rw [if_pos looks, List.mem_singleton] at member
    subst member
    show target.toNat < program.size
    omega
  · rw [if_neg looks] at member
    cases member

theorem inRange_touched {word : Word} {format : Format} (inside : m.pc.toNat < m.program.size)
    (fine : m.fault? word format = none) :
    ∀ place ∈ m.touched format, place.InRange m.program := by
  cases format with
  | address value => exact List.forall_mem_nil _
  | reserved => cases fine
  | compute memory control dest jump =>
    have cell : ∀ used : Bool, (used = true → memory = true ∨ dest.m = true) →
        ∀ place ∈ m.cellPlace used, place.InRange m.program := by
      intro used needed place member
      cases used with
      | false => cases member
      | true =>
        obtain rfl := List.mem_singleton.1 member
        exact isMapped_iff.1 (isMapped_of_fault?_eq_none fine (needed rfl))
    intro place member
    rcases List.mem_append.1 member with operand | later
    · exact cell memory .inl place operand
    · rcases List.mem_append.1 later with result | target
      · exact cell dest.m .inr place result
      · exact inRange_lookBack inside m.a jump place target

theorem inRange_places (m : Machine) : ∀ place ∈ m.places, place.InRange m.program := by
  rcases m.step_cases with ⟨halted, -⟩ | ⟨running, fetch, -⟩ |
    ⟨word, fault, running, fetch, fails, -⟩ | ⟨word, running, fetch, fine, -⟩
  · rw [places_of_halted halted]
    exact List.forall_mem_nil _
  · rw [places_of_end running fetch]
    exact List.forall_mem_nil _
  · rw [places_of_fault running fetch fails]
    exact List.forall_mem_singleton.2 (Array.getElem?_eq_some_iff.1 fetch).1
  · have inside := (Array.getElem?_eq_some_iff.1 fetch).1
    rw [places_of_word running fetch fine]
    exact List.forall_mem_cons.2 ⟨inside, inRange_touched inside fine⟩

end Machine

/-! ## Whole runs -/

namespace Trail

variable {α β : Type} {program : Array Word} {m : Machine}

theorem Succeeds.of_eq {x : Trail α} {places : List Place} {value : α}
    (found : x = ⟨places, some value⟩) (exist : ∀ place ∈ places, place.InRange program) :
    x.Succeeds program value := by
  rw [found]
  exact ⟨rfl, exist⟩

theorem succeeds_pure (value : α) : Succeeds program (pure value) value :=
  .of_eq rfl (List.forall_mem_nil _)

theorem Succeeds.bind {x : Trail α} {next : α → Trail β} {value : α} {result : β}
    (first : x.Succeeds program value) (second : (next value).Succeeds program result) :
    (x >>= next).Succeeds program result := by
  obtain ⟨before, found⟩ := x
  obtain ⟨rfl, exist⟩ := first
  refine ⟨second.1, fun place member => ?_⟩
  rcases List.mem_append.1 member with early | late
  · exact exist place early
  · exact second.2 place late

theorem succeeds_step (m : Machine) : (Access.trail.step m).Succeeds m.program m.step :=
  .of_eq (Access.trail_step_eq m) m.inRange_places

/-- A cell is read if it exists, and otherwise nothing is done. -/
theorem succeeds_read (m : Machine) (address : Word) :
    (Access.trail.read m address).Succeeds program (m.read address) := by
  cases mapped : Machine.isMapped address with
  | false =>
    rw [Access.read, Access.checked_of_unmapped mapped, Machine.read, mapped]
    exact succeeds_pure _
  | true =>
    rw [Access.trail_visits.read_eq m mapped, Machine.read, mapped]
    exact .of_eq rfl (List.forall_mem_singleton.2 (Machine.isMapped_iff.1 mapped))

theorem succeeds_write (m : Machine) (address value : Word) :
    (Access.trail.write m address value).Succeeds program (m.write address value) := by
  cases mapped : Machine.isMapped address with
  | false =>
    rw [Access.write, Access.checked_of_unmapped mapped, Machine.write, mapped]
    exact succeeds_pure _
  | true =>
    rw [Access.trail_visits.write_eq m value mapped, Machine.write, mapped]
    exact .of_eq rfl (List.forall_mem_singleton.2 (Machine.isMapped_iff.1 mapped))

/-- What holds of each step holds of a run, however long it is. -/
theorem succeeds_run (limit : Int64) (fuel : Nat) (m : Machine) :
    (Access.trail.run limit fuel m).Succeeds m.program (Machine.run limit fuel m) := by
  induction fuel generalizing m with
  | zero => exact succeeds_pure none
  | succ fuel ih =>
    unfold Access.run
    cases halted : m.halted with
    | true =>
      rw [Machine.run_of_halted limit halted]
      exact succeeds_pure _
    | false =>
      cases reached : m.limitReached limit with
      | true =>
        rw [Machine.run_of_limit halted reached]
        exact succeeds_pure _
      | false =>
        have stepped := succeeds_step m
        rcases step : m.step with ⟨next, _ | fault⟩
        · rw [Machine.run_of_step halted reached step]
          rw [step] at stepped
          have rest := ih next
          rw [Machine.program_of_step step] at rest
          exact stepped.bind rest
        · rw [Machine.run_of_fault halted reached step]
          rw [step] at stepped
          exact stepped.bind (succeeds_pure _)

end Trail

/-! ## The machines that can be reached -/

namespace Machine

variable {program : Array Word} {m : Machine}

/-- The machines that can be reached when a program has been loaded.  Registers can be given any
values at any time, the halted flag and the counter included.  Reading a cell changes nothing, and
neither does an attempt to write a cell that does not exist. -/
inductive Reached (program : Array Word) : Machine → Prop where
  | load : Reached program (load program)
  | assign {m : Machine} (before : Reached program m) (a d pc : Word) (halted : Bool)
      (steps : Int64) :
      Reached program { m with a := a, d := d, pc := pc, halted := halted, steps := steps }
  | write {m next : Machine} {address value : Word} (before : Reached program m)
      (stored : m.write address value = .ok next) : Reached program next
  | step {m : Machine} (before : Reached program m) : Reached program m.step.1
  | run {m final : Machine} {limit : Int64} {fuel : Nat} {fault : Option MachineFault}
      (before : Reached program m) (ran : m.run limit fuel = some (final, fault)) :
      Reached program final

theorem program_write {next : Machine} {address value : Word}
    (stored : m.write address value = .ok next) : next.program = m.program := by
  unfold write at stored
  cases mapped : isMapped address with
  | false =>
    rw [mapped] at stored
    cases stored
  | true =>
    rw [mapped, store_eq] at stored
    cases stored
    rfl

theorem Visits.program_eq {limit : Int64} {s : Machine} (h : Visits limit m s) :
    s.program = m.program := by
  induction h with
  | start => rfl
  | next _ _ _ step ih => rw [program_of_step step, ih]

theorem program_run {limit : Int64} {fuel : Nat} {final : Machine} {fault : Option MachineFault}
    (ran : m.run limit fuel = some (final, fault)) : final.program = m.program := by
  obtain ⟨last, visits, stops⟩ := Visits.start.exists_stops_of_run ran
  cases stops with
  | halted | limit => exact visits.program_eq
  | fails _ _ step => rw [program_of_step step, visits.program_eq]

/-- The program stays as it was loaded. -/
theorem Reached.program_eq (reached : Reached program m) : m.program = program := by
  induction reached with
  | load => rfl
  | assign _ _ _ _ _ _ ih => exact ih
  | write _ stored ih => rw [program_write stored, ih]
  | step _ ih => rw [program_step, ih]
  | run _ ran ih => rw [program_run ran, ih]

/-- Load any program, of any size, and then set registers, write cells, step and run in any order.
The machine never breaks down.

* A step that goes to its places directly does what a step does.  All its places exist.
* The same holds of all the steps of a run, whether it comes to an end or not.
* A cell is read or written only if it exists. -/
theorem machine_stays_in_range (reached : Reached program m) :
    (Access.trail.step m = ⟨m.places, some m.step⟩ ∧
      ∀ place ∈ m.places, place.InRange program) ∧
    (∀ limit fuel, (Access.trail.run limit fuel m).Succeeds program (m.run limit fuel)) ∧
    (∀ address, (Access.trail.read m address).Succeeds program (m.read address)) ∧
    ∀ address value,
      (Access.trail.write m address value).Succeeds program (m.write address value) := by
  obtain rfl := reached.program_eq
  refine ⟨⟨Access.trail_step_eq m, m.inRange_places⟩, ?_, ?_, ?_⟩
  · intro limit fuel
    exact Trail.succeeds_run limit fuel m
  · intro address
    exact Trail.succeeds_read m address
  · intro address value
    exact Trail.succeeds_write m address value

/-- The jump `0;JMP` at the first word, with the last address of all in `A`.  In words, the target
stands right before the program counter.  There is nothing at the target, and the machine does not
look at it. -/
theorem machine_stays_in_range_lastAddress :
    ∃ m : Machine, m = { load #[0xEA87] with a := 65535 } ∧ Reached #[0xEA87] m ∧
      m.a + 1 = m.pc ∧ (Access.trail.word m m.a.toNat).value = none ∧
      Access.trail.step m = ⟨[.program 0], some m.step⟩ ∧ m.step.1.pc = 65535 ∧
      (Access.trail.run 0 3 m).Succeeds #[0xEA87] (m.run 0 3) ∧ (m.run 0 3).isSome := by
  have reached : Reached #[0xEA87] { load #[0xEA87] with a := 65535 } :=
    Reached.load.assign 65535 0 0 false 0
  obtain ⟨⟨stepped, -⟩, ran, -⟩ := machine_stays_in_range reached
  exact ⟨_, rfl, reached, rfl, rfl, stepped, rfl, ran 0 3, rfl⟩

end Machine
end HackMachine
