import HackMachine.Proofs.Instruction.Codec
import HackMachine.Proofs.Machine.Step

/-!
# The idle loop

The machine halts on an unconditional jump back to a word that is equal to its own address.  Whether
the loop it gives up is idle is a question about what would happen if the machine went on, so `driven`
takes steps and clears the halted flag before each of them.

If the word is an address, it is an instruction that loads this address, and the machine goes round a
loop of two instructions for ever (`IsLoop.inLoop_driven`).  The test for halting does not look at
what the jump stores.  So the loop need not be idle: what it does to `D` and to the memory in one turn
is `turn`, and nothing ever changes exactly if the first turn changes nothing
(`IsLoop.data_driven_iff`).  For a jump that stores nowhere but in `A` this is always so.

If the word is not an address, nothing loads the address again.  A reserved word fails at once.  A
compute instruction is executed like any other: it may fail for want of a memory cell, load another
address, or jump itself.  Only if neither of the two instructions loads `A` and the first needs no
cell is there a loop again (`IsPair.inPair_driven`).

* `halted_step_is_loop`: all of this for a step that halts the machine.
* `halts_while_counting`: a loop that is not idle.
-/

namespace HackMachine
namespace Machine

/-! ## Going on -/

/-- The machine with the halted flag cleared. -/
def awake (m : Machine) : Machine := { m with halted := false }

/-- The machine after some steps, with the halted flag cleared before each of them. -/
def driven (m : Machine) (n : Nat) : Machine := (fun m => m.awake.step.1)^[n] m

@[simp] theorem driven_zero (m : Machine) : m.driven 0 = m := rfl

theorem driven_succ (m : Machine) (n : Nat) : m.driven (n + 1) = (m.driven n).awake.step.1 :=
  Function.iterate_succ_apply' _ n m

theorem program_driven (m : Machine) (n : Nat) : (m.driven n).program = m.program := by
  induction n with
  | zero => rfl
  | succ n ih =>
    rw [driven_succ, program_step]
    exact ih

/-- What a program works on: the register `D` and the memory. -/
def data (m : Machine) : Word × Vector Word memorySize := (m.d, m.memory)

/-! ## A loop of two instructions -/

/-- A word that loads its own address, and behind it a computation that always jumps and that can be
executed when `A` holds this address. -/
structure IsLoop (program : Array Word) (here : Word) (memory : Bool) (control : Control)
    (dest : Destination) : Prop where
  load : program[here.toNat]? = some here
  isAddress : here.toNat < addressCount
  jump : ∃ word, program[here.toNat + 1]? = some word ∧
    Format.ofWord word = .compute memory control dest .always
  access : isMapped here = false → memory = false ∧ dest.m = false

/-- The machine is at one of the two instructions, and at the second one because of the first. -/
def InLoop (here : Word) (m : Machine) : Prop := m.pc = here ∨ m.pc = here + 1 ∧ m.a = here

/-- What the computation of a loop does to `D` and the memory. -/
def turn (here : Word) (memory : Bool) (control : Control) (dest : Destination)
    (data : Word × Vector Word memorySize) : Word × Vector Word memorySize :=
  let out := control.apply data.1 (if memory then data.2[here.toNat]?.getD 0 else here)
  (if dest.d then out else data.1,
    if dest.m then data.2.setIfInBounds here.toNat out else data.2)

theorem turn_of_quiet {here : Word} {memory : Bool} {control : Control} {dest : Destination}
    (quietD : dest.d = false) (quietM : dest.m = false)
    (data : Word × Vector Word memorySize) : turn here memory control dest data = data := by
  simp [turn, quietD, quietM]

namespace IsLoop

variable {here : Word} {memory : Bool} {control : Control} {dest : Destination} {m : Machine}

/-- The address behind a word that loads its own address. -/
theorem toNat_next {program : Array Word} (loop : IsLoop program here memory control dest) :
    (here + 1).toNat = here.toNat + 1 := by
  have small := loop.isAddress
  rw [UInt16.toNat_add]
  simp only [addressCount] at small
  simp
  omega

variable (loop : IsLoop m.program here memory control dest)
include loop

/-- The first instruction loads its address and changes no data. -/
theorem step_load (first : m.pc = here) :
    m.awake.step.2 = none ∧ (m.awake.step.1.pc = here + 1 ∧ m.awake.step.1.a = here) ∧
      m.awake.step.1.data = m.data := by
  have format : Format.ofWord here = .address ⟨here.toNat, loop.isAddress⟩ :=
    dif_pos loop.isAddress
  have loads : Format.addressWord ⟨here.toNat, loop.isAddress⟩ = here :=
    Format.addressWord_of_ofWord format
  have fetch : m.awake.program[m.awake.pc.toNat]? = some here := by
    rw [← loop.load, ← first]
    rfl
  have fine : m.awake.fault? here (.ofWord here) = none := by
    rw [format]
    rfl
  rw [step_of_word rfl fetch fine, format]
  exact ⟨rfl, ⟨congrArg (· + 1) first, loads⟩, rfl⟩

/-- The second instruction jumps back and makes one turn. -/
theorem step_jump (second : m.pc = here + 1) (loaded : m.a = here) :
    m.awake.step.2 = none ∧ m.awake.step.1.pc = here ∧
      m.awake.step.1.data = turn here memory control dest m.data := by
  obtain ⟨word, at_next, format⟩ := loop.jump
  have fetch : m.awake.program[m.awake.pc.toNat]? = some word := by
    rw [← at_next, ← loop.toNat_next, ← second]
    rfl
  have fine : m.awake.fault? word (.ofWord word) = none := by
    have same : m.awake.a = here := loaded
    rw [format, fault?, same]
    cases mapped : isMapped here with
    | true => rfl
    | false =>
      obtain ⟨noRead, noWrite⟩ := loop.access mapped
      simp [noRead, noWrite]
  rw [step_of_word rfl fetch fine, format, execute_compute _ memory control dest .always rfl,
    ← loaded]
  exact ⟨rfl, if_pos (holds_always _), rfl⟩

/-- A step keeps the machine in the loop, without a fault, and changes the data by a turn or not at
all. -/
theorem step (inside : InLoop here m) :
    m.awake.step.2 = none ∧ InLoop here m.awake.step.1 ∧
      (m.awake.step.1.data = m.data ∨
        m.awake.step.1.data = turn here memory control dest m.data) := by
  rcases inside with first | ⟨second, loaded⟩
  · obtain ⟨fine, ahead, same⟩ := loop.step_load first
    exact ⟨fine, .inr ahead, .inl same⟩
  · obtain ⟨fine, back, turned⟩ := loop.step_jump second loaded
    exact ⟨fine, .inl back, .inr turned⟩

/-- A loop is still a loop after some steps. -/
theorem of_driven (n : Nat) : IsLoop (m.driven n).program here memory control dest := by
  rw [program_driven]
  exact loop

/-- The machine stays in the loop for ever. -/
theorem inLoop_driven (inside : InLoop here m) (n : Nat) : InLoop here (m.driven n) := by
  induction n with
  | zero => exact inside
  | succ n ih =>
    rw [driven_succ]
    exact ((loop.of_driven n).step ih).2.1

/-- Two steps make one turn. -/
theorem data_driven_two (first : m.pc = here) :
    (m.driven 2).data = turn here memory control dest m.data := by
  obtain ⟨-, ⟨second, loaded⟩, same⟩ := loop.step_load first
  have turned := ((loop.of_driven 1).step_jump second loaded).2.2
  rw [driven_succ, turned]
  exact congrArg _ same

/-- If one turn changes nothing, nothing ever changes. -/
theorem data_driven_of_turn (inside : InLoop here m)
    (fixed : turn here memory control dest m.data = m.data) (n : Nat) :
    (m.driven n).data = m.data := by
  induction n with
  | zero => rfl
  | succ n ih =>
    rw [driven_succ]
    rcases ((loop.of_driven n).step (loop.inLoop_driven inside n)).2.2 with same | turned
    · rw [same, ih]
    · rw [turned, ih, fixed]

/-- The data stay as they are exactly if they do so for one turn. -/
theorem data_driven_iff (first : m.pc = here) :
    (∀ n, (m.driven n).data = m.data) ↔ (m.driven 2).data = m.data := by
  constructor
  · intro same
    exact same 2
  · intro same
    rw [loop.data_driven_two first] at same
    exact loop.data_driven_of_turn (.inl first) same

end IsLoop

/-! ## Two computations -/

/-- A computation and behind it another one that always jumps.  Neither loads `A` or needs a cell. -/
structure IsPair (program : Array Word) (here : Word) : Prop where
  first : ∃ control dest jump, program[here.toNat]? = some here ∧
    Format.ofWord here = .compute false control dest jump ∧ dest.a = false ∧ dest.m = false
  second : ∃ word control dest, program[(here + 1).toNat]? = some word ∧
    Format.ofWord word = .compute false control dest .always ∧ dest.a = false ∧ dest.m = false

/-- The machine is at one of the two instructions, and `A` holds the address of the first. -/
def InPair (here : Word) (m : Machine) : Prop := (m.pc = here ∨ m.pc = here + 1) ∧ m.a = here

/-- What becomes of a computation at the program counter when the machine is awake. -/
theorem step_awake_of_compute {m : Machine} {word : Word} {memory : Bool} {control : Control}
    {dest : Destination} {jump : Jump} (fetch : m.program[m.pc.toNat]? = some word)
    (format : Format.ofWord word = .compute memory control dest jump) :
    m.awake.step.2 = m.fault? word (.compute memory control dest jump) ∧
    (m.awake.step.2 = none → (dest.a = false → m.awake.step.1.a = m.a) ∧
      ∃ out, m.awake.step.1.pc = if jump.holds out then m.a else m.pc + 1) := by
  have fetch' : m.awake.program[m.awake.pc.toNat]? = some word := fetch
  have same : m.awake.fault? word (.ofWord word) =
      m.fault? word (.compute memory control dest jump) := by
    rw [format]
    rfl
  cases found : m.fault? word (.compute memory control dest jump) with
  | some fault =>
    rw [step_of_fault rfl fetch' (same.trans found)]
    exact ⟨rfl, fun succeeds => absurd succeeds (Option.some_ne_none fault)⟩
  | none =>
    rw [step_of_word rfl fetch' (same.trans found), format,
      execute_compute _ memory control dest jump rfl]
    exact ⟨rfl, fun _ => ⟨fun noA => if_neg (by simp [noA]), _, rfl⟩⟩

namespace IsPair

variable {here : Word} {m : Machine}

/-- A step keeps the machine at the two instructions, without a fault. -/
theorem step (pair : IsPair m.program here) (inside : InPair here m) :
    m.awake.step.2 = none ∧ InPair here m.awake.step.1 := by
  obtain ⟨place, loaded⟩ := inside
  have fine : ∀ {word control dest jump}, dest.m = false →
      m.fault? word (.compute false control dest jump) = none := by
    intro word control dest jump noM
    simp [fault?, noM]
  rcases place with isFirst | isSecond
  · obtain ⟨control, dest, jump, fetch, format, noA, noM⟩ := pair.first
    rw [← isFirst] at fetch
    obtain ⟨outcome, goesOn⟩ := step_awake_of_compute fetch (isFirst ▸ format)
    rw [fine noM] at outcome
    obtain ⟨stays, out, moves⟩ := goesOn outcome
    refine ⟨outcome, ?_, (stays noA).trans loaded⟩
    rw [moves, loaded, isFirst]
    cases jump.holds out with
    | true => exact .inl rfl
    | false => exact .inr rfl
  · obtain ⟨word, control, dest, fetch, format, noA, noM⟩ := pair.second
    rw [← isSecond] at fetch
    obtain ⟨outcome, goesOn⟩ := step_awake_of_compute fetch format
    rw [fine noM] at outcome
    obtain ⟨stays, out, moves⟩ := goesOn outcome
    refine ⟨outcome, .inl ?_, (stays noA).trans loaded⟩
    rw [moves, if_pos (holds_always out), loaded]

/-- The machine stays at the two instructions for ever. -/
theorem inPair_driven (pair : IsPair m.program here) (inside : InPair here m) (n : Nat) :
    IsPair (m.driven n).program here ∧ InPair here (m.driven n) := by
  induction n with
  | zero => exact ⟨pair, inside⟩
  | succ n ih =>
    rw [driven_succ, program_step]
    exact ⟨ih.1, (ih.1.step ih.2).2⟩

end IsPair

/-! ## Halting in a loop -/

section Halting

variable {m : Machine} {word : Word} (running : m.halted = false)
  (fetch : m.program[m.pc.toNat]? = some word) (halts : m.step.1.halted = true)
include running fetch halts

/-- A step that executes an instruction and halts jumps back to a word that is equal to its
address. -/
theorem exists_jump_of_halts :
    m.step.2 = none ∧ m.step.1.pc = m.a ∧ m.a.toNat + 1 = m.pc.toNat ∧
      m.program[m.a.toNat]? = some m.a ∧ ∃ memory control dest,
        Format.ofWord word = .compute memory control dest .always ∧
        (dest.a = false → m.step.1.a = m.a) ∧
        (isMapped m.a = false → memory = false ∧ dest.m = false) := by
  rcases m.step_cases with ⟨halted, -⟩ | ⟨-, gone, -⟩ | ⟨word', reason, -, -, -, step⟩ |
    ⟨word', -, fetch', fine, step⟩
  · exact absurd (running.symm.trans halted) Bool.false_ne_true
  · cases fetch.symm.trans gone
  · rw [step] at halts
    exact absurd (running.symm.trans halts) Bool.false_ne_true
  · obtain rfl := Option.some.inj (fetch.symm.trans fetch')
    rw [step] at halts ⊢
    obtain ⟨memory, control, dest, format, before, self, target⟩ :=
      idle_of_halted_execute (m := m.count) running halts
    refine ⟨rfl, target, before, self, memory, control, dest, format, fun noA => ?_,
      fun unmapped => ?_⟩
    · rw [format, execute_compute _ memory control dest .always rfl]
      exact if_neg (by simp [noA])
    · rw [format] at fine
      have mapped := isMapped_of_fault?_eq_none fine
      rw [unmapped] at mapped
      simpa using mapped

/-- If the word that the machine jumps to is an address, there is a loop. -/
theorem isLoop_of_halts (isAddress : m.step.1.pc.toNat < addressCount) :
    ∃ memory control dest, Format.ofWord word = .compute memory control dest .always ∧
      IsLoop m.step.1.program m.step.1.pc memory control dest := by
  obtain ⟨-, target, before, self, memory, control, dest, format, -, access⟩ :=
    exists_jump_of_halts running fetch halts
  refine ⟨memory, control, dest, format, ?_⟩
  rw [target] at isAddress ⊢
  rw [program_step]
  refine ⟨self, isAddress, ⟨word, ?_, format⟩, access⟩
  rw [before, fetch]

/-- The word that the machine jumps to is the one right before the instruction. -/
theorem next_of_halts : m.step.1.pc + 1 = m.pc := by
  obtain ⟨-, target, before, -⟩ := exists_jump_of_halts running fetch halts
  have fits : m.pc.toNat < 65536 := m.pc.toNat_lt
  have one : (1 : Word).toNat = 1 := rfl
  rw [target, ← UInt16.toNat_inj, UInt16.toNat_add, one]
  omega

/-- If it is a computation that neither needs a cell nor loads `A`, and the instruction does not load
`A` either, the machine stays at these two. -/
theorem isPair_of_halts (far : 57344 ≤ m.step.1.pc.toNat) (keepsA : word.bit 5 = false)
    {control : Control} {dest : Destination} {jump : Jump}
    (format : Format.ofWord m.step.1.pc = .compute false control dest jump)
    (noA : dest.a = false) (noM : dest.m = false) :
    IsPair m.step.1.program m.step.1.pc ∧ InPair m.step.1.pc m.step.1 := by
  have next := next_of_halts running fetch halts
  obtain ⟨-, target, -, self, memory, control', dest', format', stays, access⟩ :=
    exists_jump_of_halts running fetch halts
  have unmapped : isMapped m.a = false := by
    rw [target] at far
    have outside : ¬ m.a.toNat < 24577 := by omega
    exact decide_eq_false outside
  obtain ⟨rfl, noM'⟩ := access unmapped
  have noA' : dest'.a = false := by rw [Format.dest_of_ofWord format', ← keepsA]
  refine ⟨⟨⟨control, dest, jump, ?_, format, noA, noM⟩,
    word, control', dest', ?_, format', noA', noM'⟩, .inl rfl, ?_⟩
  · rw [program_step, target, self]
  · rw [program_step, next, fetch]
  · rw [stays noA', target]

/-- A step that executes an instruction and halts leaves the machine at a word that is equal to its
own address, right before the instruction.

* If this word is an address, the machine would go on without a fault and stay at these two
  instructions for ever.  `D` and the memory would never change exactly if they do not change in the
  next two steps, and they do not if the instruction stores in neither.
* If this word is reserved, the machine would fail in the next step.
* If this word is a computation, it would be executed in the next step.  It fails only for want of a
  cell; otherwise the machine goes to where `A` points or to the instruction, and `A` stays as it is
  unless the computation loads it.  If neither of the two loads `A` and the first needs no cell, the
  machine would again stay at these two for ever. -/
theorem halted_step_is_loop :
    (m.step.2 = none ∧ m.step.1.pc.toNat + 1 = m.pc.toNat ∧
      m.program[m.step.1.pc.toNat]? = some m.step.1.pc) ∧
    (m.step.1.pc.toNat < 32768 →
      (∀ n, (m.step.1.driven n).awake.step.2 = none ∧
        ((m.step.1.driven n).pc = m.step.1.pc ∨ (m.step.1.driven n).pc = m.pc)) ∧
      ((∀ n, (m.step.1.driven n).d = m.step.1.d ∧
          (m.step.1.driven n).memory = m.step.1.memory) ↔
        (m.step.1.driven 2).d = m.step.1.d ∧ (m.step.1.driven 2).memory = m.step.1.memory) ∧
      (word.bit 4 = false → word.bit 3 = false →
        ∀ n, (m.step.1.driven n).d = m.step.1.d ∧
          (m.step.1.driven n).memory = m.step.1.memory)) ∧
    (32768 ≤ m.step.1.pc.toNat → m.step.1.pc.toNat < 57344 →
      m.step.1.awake.step.2 = some (.malformed m.step.1.pc m.step.1.pc)) ∧
    (57344 ≤ m.step.1.pc.toNat → ∃ memory control dest jump,
      Format.ofWord m.step.1.pc = .compute memory control dest jump ∧
      m.step.1.awake.step.2 = m.step.1.fault? m.step.1.pc (.compute memory control dest jump) ∧
      (m.step.1.awake.step.2 = none →
        (m.step.1.awake.step.1.pc = m.step.1.a ∨ m.step.1.awake.step.1.pc = m.pc) ∧
        (dest.a = false → m.step.1.awake.step.1.a = m.step.1.a)) ∧
      (word.bit 5 = false → memory = false → dest.a = false → dest.m = false →
        ∀ n, (m.step.1.driven n).awake.step.2 = none ∧
          ((m.step.1.driven n).pc = m.step.1.pc ∨ (m.step.1.driven n).pc = m.pc))) := by
  obtain ⟨fine, target, before, self, -⟩ := exists_jump_of_halts running fetch halts
  have next := next_of_halts running fetch halts
  have at_pc : m.step.1.program[m.step.1.pc.toNat]? = some m.step.1.pc := by
    rw [program_step, target, self]
  refine ⟨⟨fine, by rw [target, before], by rw [target, self]⟩, fun isAddress => ?_,
    fun notAddress notCompute => ?_, fun far => ?_⟩
  · obtain ⟨memory, control, dest, format, loop⟩ := isLoop_of_halts running fetch halts isAddress
    have inside : InLoop m.step.1.pc m.step.1 := .inl rfl
    have same : ∀ n, (m.step.1.driven n).data = m.step.1.data ↔
        (m.step.1.driven n).d = m.step.1.d ∧ (m.step.1.driven n).memory = m.step.1.memory :=
      fun n => Prod.mk.injEq .. ▸ Iff.rfl
    refine ⟨fun n => ?_, ?_, fun quietD quietM n => ?_⟩
    · have stays := loop.inLoop_driven inside n
      refine ⟨((loop.of_driven n).step stays).1, ?_⟩
      rcases stays with first | ⟨second, -⟩
      · exact .inl first
      · exact .inr (second.trans next)
    · simp only [← same]
      exact loop.data_driven_iff rfl
    · have stored := Format.dest_of_ofWord format
      have noD : dest.d = false := by rw [stored, ← quietD]
      have noM : dest.m = false := by rw [stored, ← quietM]
      exact (same n).1 (loop.data_driven_of_turn inside (turn_of_quiet noD noM _) n)
  · have format := Format.ofWord_eq_reserved notAddress notCompute
    have fails : m.step.1.awake.fault? m.step.1.pc (.ofWord m.step.1.pc) =
        some (.malformed m.step.1.pc m.step.1.pc) := by
      rw [format]
      rfl
    rw [step_of_fault (m := m.step.1.awake) rfl at_pc fails]
  · obtain ⟨memory, control, dest, jump, format⟩ := Format.exists_compute_of_le far
    obtain ⟨outcome, goesOn⟩ := step_awake_of_compute at_pc format
    refine ⟨memory, control, dest, jump, format, outcome, fun succeeds => ?_, ?_⟩
    · obtain ⟨stays, out, moves⟩ := goesOn succeeds
      refine ⟨?_, stays⟩
      rw [moves, next]
      cases jump.holds out with
      | true => exact .inl rfl
      | false => exact .inr rfl
    · rintro keepsA rfl noA noM n
      obtain ⟨pair, inside⟩ := isPair_of_halts running fetch halts far keepsA format noA noM
      obtain ⟨pair', inside'⟩ := pair.inPair_driven inside n
      refine ⟨(pair'.step inside').1, ?_⟩
      rw [← next]
      exact inside'.1

end Halting

/-- The usual idle loop, at its second instruction. -/
theorem halted_step_is_loop_idleLoop :
    ∃ m : Machine, m = (load #[0, 0xEA87]).step.1 ∧ m.halted = false ∧
      m.program[m.pc.toNat]? = some 0xEA87 ∧ m.step.1.halted = true ∧
      ∀ n, (m.step.1.driven n).d = 0 ∧ (m.step.1.driven n).memory = m.step.1.memory := by
  have fetch : (load #[0, 0xEA87]).step.1.program[(load #[0, 0xEA87]).step.1.pc.toNat]? =
      some 0xEA87 := rfl
  refine ⟨_, rfl, rfl, fetch, rfl, ?_⟩
  exact ((halted_step_is_loop rfl fetch rfl).2.1 (by decide)).2.2 rfl rfl

/-! ## A loop that is not idle -/

/-- The loop of a load and the jump `D=D+1;JMP` counts for ever, and the machine halts in it. -/
theorem halts_while_counting :
    ∃ m : Machine, m = (load #[0, 0xE7D7]).step.1 ∧ m.halted = false ∧
      m.program[m.pc.toNat]? = some 0xE7D7 ∧ m.step.1.halted = true ∧
      m.step.1.d = 1 ∧ (m.step.1.driven 2).d = 2 := by
  exact ⟨_, rfl, rfl, rfl, rfl, rfl, rfl⟩

end Machine
end HackMachine
