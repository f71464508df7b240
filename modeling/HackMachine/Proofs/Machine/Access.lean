import HackMachine.Proofs.Machine.Step

/-!
# One access after the other

A compute instruction can do a lot at once: it may read a memory cell, write one, load both
registers and jump, and it fails if one of its two accesses to memory does.  `step` decides
beforehand whether it will fail.  `Access.step` does not: it makes one access after the other, and if
one fails, what the instruction has done by then is done.

How the machine gets at its program and its memory is left open.  An `Access` goes to a place that is
given by its number, in some monad, and may rely on there being such a place.  So a step compares the
program counter with the size of the program, and an address with the size of the memory, and makes no
other comparison.

One place has no comparison of its own.  To see whether a jump closes an idle loop, the machine
looks at the word that it jumps to, and the target of a jump can be any word.  It only looks if the
target stands right before the program counter, and there is a word at the program counter because
it is just being executed.  So the target is in the program too, provided that "right before" is
meant in numbers.  In words, the last address of all stands right before the first one.

* `Machine.places`: the places that a step goes to.
* `Access.Visits`: an access that does what it should at every place that exists.
* `Access.Visits.step_eq`: with such an access, a step goes to its places and does what `step` does.
-/

namespace HackMachine

/-- A word of the program or a cell of the memory, by its number. -/
inductive Place where
  | program (index : Nat)
  | memory (index : Nat)
  deriving DecidableEq

/-- How a machine gets at its program and its memory. -/
structure Access (M : Type → Type) where
  /-- Look at a word of the program. -/
  word (m : Machine) (index : Nat) : M Word
  /-- Look at a cell of the memory. -/
  cell (m : Machine) (index : Nat) : M Word
  /-- Change a cell of the memory. -/
  setCell (m : Machine) (index : Nat) (value : Word) : M Machine

/-! ## The operations of the machine -/

namespace Access

variable {M : Type → Type} [Monad M] {α : Type}

/-- Go to a cell after its address has been compared with the size of the memory. -/
def checked (address : Word) (fault : MachineFault) (go : M α) : M (Except MachineFault α) :=
  if memorySize ≤ address.toNat then return .error fault else return .ok (← go)

variable (access : Access M)

/-- Read a cell. -/
def read (m : Machine) (address : Word) : M (Except MachineFault Word) :=
  checked address (.unmappedRead address m.pc) (access.cell m address.toNat)

/-- Write a cell. -/
def write (m : Machine) (address value : Word) : M (Except MachineFault Machine) :=
  checked address (.unmappedWrite address m.pc) (access.setCell m address.toNat value)

/-- The operand of a computation besides `D`.  The memory cell has to be read. -/
def fetchOperand (m : Machine) (memory : Bool) : M (Except MachineFault Word) :=
  if memory then access.read m m.a else return .ok m.a

/-- Write the result to memory, if it belongs there. -/
def storeResult (m : Machine) (dest : Destination) (out : Word) : M (Except MachineFault Machine) :=
  if dest.m then access.write m m.a out else return .ok m

/-- Whether a jump closes an idle loop.  The word at the target is looked at last. -/
def isIdle (m : Machine) (target : Word) (jump : Jump) : M Bool :=
  if target.toNat + 1 = m.pc.toNat ∧ jump = .always then
    return (← access.word m target.toNat) == target
  else return false

/-- Load the registers. -/
def loadRegisters (m : Machine) (out : Word) (dest : Destination) : Machine :=
  let m := if dest.a then { m with a := out } else m
  if dest.d then { m with d := out } else m

/-- Load the registers, and move on to the next instruction or to the target of the jump, which was
in `A` before.  In an idle loop the machine halts on its way to the target. -/
def moveOn (m : Machine) (target out : Word) (dest : Destination) (jump : Jump) : M Machine :=
  let m := loadRegisters m out dest
  if jump.holds out then do
    let idle ← access.isIdle m target jump
    return { m with pc := target, halted := m.halted || idle }
  else return { m with pc := m.pc + 1 }

/-- Finish a computation: write the result to memory, if it belongs there, and move on. -/
def finish (m : Machine) (out : Word) (dest : Destination) (jump : Jump) :
    M (Machine × Option MachineFault) := do
  match ← access.storeResult m dest out with
  | .error fault => return (m, some fault)
  | .ok stored => return (← access.moveOn stored m.a out dest jump, none)

/-- Execute a word with the given fields. -/
def execute (m : Machine) (word : Word) : Format → M (Machine × Option MachineFault)
  | .address value => return ({ m with a := Format.addressWord value, pc := m.pc + 1 }, none)
  | .reserved => return (m, some (.malformed word m.pc))
  | .compute memory control dest jump => do
    match ← access.fetchOperand m memory with
    | .error fault => return (m, some fault)
    | .ok operand => access.finish m (control.apply m.d operand) dest jump

/-- One step. -/
def step (m : Machine) : M (Machine × Option MachineFault) :=
  if m.halted then return (m, none)
  else if m.program.size ≤ m.pc.toNat then return ({ m with halted := true }, none)
  else do
    let word ← access.word m m.pc.toNat
    access.execute m.count word (.ofWord word)

/-- Run until the machine halts, fails or reaches the limit, or the fuel is used up. -/
def run (limit : Int64) : (fuel : Nat) → Machine → M (Option (Machine × Option MachineFault))
  | 0, _ => return none
  | fuel + 1, m =>
    if m.halted then return some (m, none)
    else if m.limitReached limit then return some (m, some (.stepLimit limit))
    else do
      match ← access.step m with
      | (m, some fault) => return some (m, some fault)
      | (m, none) => run limit fuel m

end Access

/-! ## The places of a step -/

namespace Machine

theorem isMapped_iff {address : Word} : isMapped address = true ↔ address.toNat < memorySize := by
  simp [isMapped]

/-- The look at the target of a jump, to see whether it closes an idle loop. -/
def lookBack (pc target : Word) (jump : Jump) : List Place :=
  if target.toNat + 1 = pc.toNat ∧ jump = .always then [.program target.toNat] else []

/-- A jump that is not taken looks at nothing. -/
theorem lookBack_of_not_holds {out : Word} {jump : Jump} (stays : jump.holds out = false)
    (pc target : Word) : lookBack pc target jump = [] := by
  apply if_neg
  rintro ⟨-, rfl⟩
  rw [holds_always] at stays
  cases stays

/-- A jump that is not taken closes no idle loop. -/
theorem isIdle_of_not_holds {m : Machine} {out : Word} {jump : Jump}
    (stays : jump.holds out = false) : m.isIdle jump = false := by
  rw [← Bool.not_eq_true]
  intro idle
  simp only [isIdle, Bool.and_eq_true, beq_iff_eq] at idle
  rw [idle.1.1, holds_always] at stays
  cases stays

/-- The place of the cell that `A` points to, if it is needed. -/
def cellPlace (m : Machine) (needed : Bool) : List Place :=
  if needed then [.memory m.a.toNat] else []

/-- The places that an instruction goes to when it is executed. -/
def touched (m : Machine) : Format → List Place
  | .address _ => []
  | .reserved => []
  | .compute memory _ dest jump =>
    m.cellPlace memory ++ (m.cellPlace dest.m ++ lookBack m.pc m.a jump)

/-- The places that a step goes to.  An instruction that fails has gone to none but its own. -/
def places (m : Machine) : List Place :=
  if m.halted then []
  else
    match m.program[m.pc.toNat]? with
    | none => []
    | some word =>
      .program m.pc.toNat ::
        if (m.fault? word (.ofWord word)).isSome then [] else m.touched (.ofWord word)

section Places

variable {m : Machine} (running : m.halted = false)

theorem places_of_halted (halted : m.halted = true) : m.places = [] := by
  simp [places, halted]

include running

theorem places_of_end (fetch : m.program[m.pc.toNat]? = none) : m.places = [] := by
  simp [places, running, fetch]

variable {word : Word} (fetch : m.program[m.pc.toNat]? = some word)
include fetch

theorem places_of_fault {fault : MachineFault} (fails : m.fault? word (.ofWord word) = some fault) :
    m.places = [.program m.pc.toNat] := by
  simp [places, running, fetch, fails]

theorem places_of_word (fine : m.fault? word (.ofWord word) = none) :
    m.places = .program m.pc.toNat :: m.touched (.ofWord word) := by
  simp [places, running, fetch, fine]

end Places

end Machine

/-! ## Going to these places -/

namespace Access

variable {M : Type → Type} [Monad M] {access : Access M} {visit : Place → M Unit} {m : Machine}

/-- At every place that exists, the access visits it and does what it should.  Nothing is said about
other places. -/
structure Visits (access : Access M) (visit : Place → M Unit) : Prop where
  word (m : Machine) {index : Nat} (inside : index < m.program.size) :
    access.word m index = do
      visit (.program index)
      return m.program[index]
  cell (m : Machine) {address : Word} (mapped : Machine.isMapped address = true) :
    access.cell m address.toNat = do
      visit (.memory address.toNat)
      return m.cell address
  setCell (m : Machine) {address : Word} (value : Word)
      (mapped : Machine.isMapped address = true) :
    access.setCell m address.toNat value = do
      visit (.memory address.toNat)
      return m.store address value

theorem checked_of_mapped {α : Type} {address : Word} (mapped : Machine.isMapped address = true)
    (fault : MachineFault) (go : M α) :
    checked address fault go = do return .ok (← go) :=
  if_neg (Nat.not_le.2 (Machine.isMapped_iff.1 mapped))

theorem checked_of_unmapped {α : Type} {address : Word}
    (unmapped : Machine.isMapped address = false) (fault : MachineFault) (go : M α) :
    checked address fault go = pure (.error fault) := by
  have outside : memorySize ≤ address.toNat := by simpa [Machine.isMapped] using unmapped
  exact if_pos outside

theorem loadRegisters_eq (m : Machine) (out : Word) (dest : Destination) :
    loadRegisters m out dest =
      { m with a := if dest.a then out else m.a, d := if dest.d then out else m.d } := by
  obtain ⟨toA, toD, -⟩ := dest
  cases toA <;> cases toD <;> rfl

/-- An instruction that fails has not gone anywhere. -/
theorem execute_of_fault [LawfulMonad M] {word : Word} {format : Format} {fault : MachineFault}
    (fails : m.fault? word format = some fault) :
    access.execute m word format = pure (m, some fault) := by
  cases format with
  | address value => cases fails
  | reserved =>
    cases fails
    rfl
  | compute memory control dest jump =>
    cases mapped : Machine.isMapped m.a with
    | true => simp [Machine.fault?, mapped] at fails
    | false =>
      cases memory with
      | true =>
        obtain rfl : .unmappedRead m.a m.pc = fault := by simpa [Machine.fault?, mapped] using fails
        simp [execute, fetchOperand, Access.read, checked_of_unmapped mapped]
      | false =>
        cases toM : dest.m with
        | false => simp [Machine.fault?, mapped, toM] at fails
        | true =>
          obtain rfl : .unmappedWrite m.a m.pc = fault := by
            simpa [Machine.fault?, mapped, toM] using fails
          simp [execute, fetchOperand, finish, storeResult, toM, Access.write,
            checked_of_unmapped mapped]

namespace Visits

variable [LawfulMonad M] (visits : access.Visits visit)
include visits

theorem read_eq (m : Machine) {address : Word} (mapped : Machine.isMapped address = true) :
    access.read m address = do
      visit (.memory address.toNat)
      return .ok (m.cell address) := by
  rw [Access.read, checked_of_mapped mapped, visits.cell m mapped]
  simp only [bind_assoc, pure_bind]

theorem write_eq (m : Machine) {address : Word} (value : Word)
    (mapped : Machine.isMapped address = true) :
    access.write m address value = do
      visit (.memory address.toNat)
      return .ok (m.store address value) := by
  rw [Access.write, checked_of_mapped mapped, visits.setCell m value mapped]
  simp only [bind_assoc, pure_bind]

theorem fetchOperand_eq {memory : Bool} (mapped : memory = true → Machine.isMapped m.a = true) :
    access.fetchOperand m memory = do
      forM (m.cellPlace memory) visit
      return .ok (if memory then m.cell m.a else m.a) := by
  cases memory with
  | false => simp [fetchOperand, Machine.cellPlace]
  | true => simp [fetchOperand, Machine.cellPlace, visits.read_eq m (mapped rfl)]

theorem storeResult_eq {dest : Destination}
    (mapped : dest.m = true → Machine.isMapped m.a = true) (out : Word) :
    access.storeResult m dest out = do
      forM (m.cellPlace dest.m) visit
      return .ok (if dest.m then m.store m.a out else m) := by
  cases toM : dest.m with
  | false => simp [storeResult, Machine.cellPlace, toM]
  | true => simp [storeResult, Machine.cellPlace, toM, visits.write_eq m out (mapped toM)]

/-- There is a word at the target if it stands right before the program counter. -/
theorem isIdle_eq (inside : m.pc.toNat < m.program.size) (target : Word) (jump : Jump) :
    access.isIdle m target jump = do
      forM (Machine.lookBack m.pc target jump) visit
      return { m with a := target }.isIdle jump := by
  unfold Access.isIdle Machine.lookBack
  by_cases looks : target.toNat + 1 = m.pc.toNat ∧ jump = .always
  · have before : target.toNat < m.program.size := by omega
    rw [if_pos looks, if_pos looks, visits.word m before]
    simp [Machine.isIdle, looks, before]
  · have stays : { m with a := target }.isIdle jump = false := by
      rw [← Bool.not_eq_true]
      intro idle
      simp only [Machine.isIdle, Bool.and_eq_true, beq_iff_eq] at idle
      exact looks ⟨idle.1.2, idle.1.1⟩
    rw [if_neg looks, if_neg looks, stays]
    simp

/-- The registers, the program counter and the flag after the machine has moved on. -/
theorem moveOn_eq (inside : m.pc.toNat < m.program.size) (target out : Word) (dest : Destination)
    (jump : Jump) :
    access.moveOn m target out dest jump = do
      forM (Machine.lookBack m.pc target jump) visit
      return { m with
        a := if dest.a then out else m.a
        d := if dest.d then out else m.d
        pc := if jump.holds out then target else m.pc + 1
        halted := m.halted || { m with a := target }.isIdle jump } := by
  unfold moveOn
  rw [loadRegisters_eq]
  cases holds : jump.holds out with
  | false =>
    rw [Machine.lookBack_of_not_holds holds, Machine.isIdle_of_not_holds holds]
    simp
  | true =>
    -- loading the registers leaves the program and its counter alone
    have tested := visits.isIdle_eq
      (m := { m with a := if dest.a then out else m.a, d := if dest.d then out else m.d })
      inside target jump
    simp only [tested, bind_assoc, pure_bind, if_true]
    rfl

theorem finish_eq {dest : Destination} (inside : m.pc.toNat < m.program.size)
    (mapped : dest.m = true → Machine.isMapped m.a = true) (out : Word) (jump : Jump) :
    access.finish m out dest jump = do
      forM (m.cellPlace dest.m ++ Machine.lookBack m.pc m.a jump) visit
      return ({ m with
        a := if dest.a then out else m.a
        d := if dest.d then out else m.d
        pc := if jump.holds out then m.a else m.pc + 1
        memory := if dest.m then m.memory.setIfInBounds m.a.toNat out else m.memory
        halted := m.halted || m.isIdle jump }, none) := by
  -- a store leaves the program and its counter alone
  have stored : (if dest.m then m.store m.a out else m) =
      { m with memory := if dest.m then m.memory.setIfInBounds m.a.toNat out else m.memory } := by
    cases dest.m with
    | false => rfl
    | true => exact m.store_eq m.a out
  have moved := visits.moveOn_eq
    (m := { m with memory := if dest.m then m.memory.setIfInBounds m.a.toNat out else m.memory })
    inside m.a out dest jump
  rw [finish, visits.storeResult_eq mapped, stored]
  simp only [moved, bind_assoc, pure_bind, List.forM_append]
  rfl

/-- An instruction that can be executed goes to its places. -/
theorem execute_of_fine {word : Word} {format : Format} (inside : m.pc.toNat < m.program.size)
    (fine : m.fault? word format = none) :
    access.execute m word format = do
      forM (m.touched format) visit
      return (m.execute format, none) := by
  cases format with
  | address value => simp [execute, Machine.touched, Machine.execute]
  | reserved => cases fine
  | compute memory control dest jump =>
    have mapped := Machine.isMapped_of_fault?_eq_none fine
    have operand := visits.fetchOperand_eq fun used => mapped (.inl used)
    have finished := visits.finish_eq inside (fun used => mapped (.inr used))
      (control.apply m.d (if memory then m.cell m.a else m.a)) jump
    rw [execute, operand, m.execute_compute memory control dest jump (by rw [← m.cell_eq])]
    simp only [finished, bind_assoc, pure_bind, Machine.touched, List.forM_append]

/-- A step that finds a word goes on from there. -/
theorem step_of_fetch {word : Word} (running : m.halted = false)
    (fetch : m.program[m.pc.toNat]? = some word) :
    access.step m = (do
      visit (.program m.pc.toNat)
      access.execute m.count word (.ofWord word)) := by
  obtain ⟨inside, found⟩ := Array.getElem?_eq_some_iff.1 fetch
  rw [step, if_neg (by simp [running]), if_neg (Nat.not_le.2 inside), visits.word m inside, found]
  simp only [bind_assoc, pure_bind]

/-- One access after the other, a step goes to its places and does what `step` does. -/
theorem step_eq (m : Machine) :
    access.step m = do
      forM m.places visit
      return m.step := by
  rcases m.step_cases with ⟨halted, stepped⟩ | ⟨running, fetch, stepped⟩ |
    ⟨word, fault, running, fetch, fails, stepped⟩ | ⟨word, running, fetch, fine, stepped⟩
  · rw [stepped, Machine.places_of_halted halted, step, if_pos halted, List.forM_nil, pure_bind]
  · have outside : m.program.size ≤ m.pc.toNat := Array.getElem?_eq_none_iff.1 fetch
    rw [stepped, Machine.places_of_end running fetch, step, if_neg (by simp [running]),
      if_pos outside, List.forM_nil, pure_bind]
  · rw [stepped, Machine.places_of_fault running fetch fails, visits.step_of_fetch running fetch,
      execute_of_fault (m := m.count) fails]
    simp
  · have inside : m.pc.toNat < m.program.size := (Array.getElem?_eq_some_iff.1 fetch).1
    rw [stepped, Machine.places_of_word running fetch fine, visits.step_of_fetch running fetch,
      visits.execute_of_fine (m := m.count) inside fine, List.forM_cons, bind_assoc]
    rfl

end Visits
end Access
end HackMachine
