import HackMachine.Proofs.Disassembly
import HackMachine.Proofs.Machine.Interpreter
import HackMachine.Proofs.Machine.Step

/-!
# The machine runs the source program

A machine that has loaded the words of an assembled program and the interpreter of the source program
take the same steps, with one exception.

The machine recognises the idle loop by looking at the word in front of the jump: if this word is
equal to its own address, the machine halts.  For an address below 32768 such a word is the
instruction that loads this address, and the loop is idle.  A word of a compute instruction can be
equal to its address as well, and then the machine halts although the loop may do anything
(`FalseIdle`).  This takes a program of more than 57345 instructions, as the words of compute
instructions start at 57344.

* `step_agrees`: one step, with or without the exception.
* `after_eq_run_iff`: a run, for which the exception must not have been met.
* `machine_follows_source`: the same for programs that assemble.
* `machine_halts_in_counting_loop`: a program that meets the exception.
-/

namespace HackMachine

open Meaning

namespace Interpreter

/-- The state of the interpreter that agrees with a machine. -/
def ofMachine (m : Machine) : State := ⟨m.a, m.d, m.pc, m.memory, m.halted, m.steps⟩

/-! ## Programs -/

/-- A written instruction spells an instruction of the machine. -/
def Spells : SourceInstruction → Instruction → Prop
  | .load address, .load value => value.val = address
  | .compute dest comp jump, i => Instruction.ofFields dest comp jump = .ok i
  | _, _ => False

theorem Spells.cases {c : SourceInstruction} {i : Instruction} (h : Spells c i) :
    (∃ value : Fin addressCount, c = .load value ∧ i = .load value) ∨
      ∃ dest comp jump, c = .compute dest comp jump ∧
        Instruction.ofFields dest comp jump = .ok i := by
  cases c with
  | load address =>
    cases i with
    | load value => exact .inl ⟨value, congrArg _ (Eq.symm h), rfl⟩
    | compute => exact h.elim
  | compute dest comp jump => exact .inr ⟨dest, comp, jump, rfl, h⟩

/-- The machine has loaded the words of a source program. -/
def Loaded (program : List SourceInstruction) (m : Machine) : Prop :=
  List.Forall₂ (fun c w => ∃ i, Spells c i ∧ w = Instruction.encode i) program m.program.toList

/-- An operation with names replaced spells the instruction that the operation means. -/
theorem spells_resolve {lines : List SourceLine} {op : Operation} {i : Instruction}
    (h : Means lines op i) : Spells (resolve lines op) i := by
  cases op with
  | address operand =>
    cases i with
    | load address =>
      cases operand with
      | literal value => exact h
      | symbol name =>
        obtain ⟨kind, bound⟩ := h
        change address.val = addressOf lines name
        rw [addressOf, bound]
        rfl
    | compute => cases operand <;> exact h.elim
  | compute dest comp jump => exact h

theorem loaded_of_assembleLines_ok {lines : List SourceLine} {p : Program}
    (h : assembleLines lines = .ok p) {m : Machine} (loaded : m.program = p.words) :
    Loaded (sourceProgram lines) m := by
  obtain ⟨instructions, means, words⟩ := exists_means_of_assembleLines_ok h
  rw [Loaded, sourceProgram, loaded, words, List.forall₂_map_left_iff, List.forall₂_map_right_iff]
  exact means.imp fun _ i hi => ⟨i, spells_resolve hi, rfl⟩

variable {program : List SourceInstruction} {m : Machine}

/-- The machine and the interpreter fetch the same instruction. -/
theorem Loaded.fetch (loaded : Loaded program m) (k : Nat) :
    (program[k]? = none ∧ m.program[k]? = none) ∨
      ∃ c i, program[k]? = some c ∧ m.program[k]? = some (Instruction.encode i) ∧ Spells c i := by
  obtain ⟨same, words⟩ := List.forall₂_iff_get.1 loaded
  rw [← Array.getElem?_toList]
  by_cases inside : k < program.length
  · right
    have inside' : k < m.program.toList.length := same ▸ inside
    obtain ⟨i, spells, word⟩ := words k inside inside'
    exact ⟨_, i, List.getElem?_eq_getElem inside, (List.getElem?_eq_getElem inside').trans
      (congrArg some word), spells⟩
  · left
    exact ⟨List.getElem?_eq_none (Nat.le_of_not_lt inside),
      List.getElem?_eq_none (same ▸ Nat.le_of_not_lt inside)⟩

/-! ## The idle loop -/

/-- The instruction at an address is a computation whose word is equal to the address. -/
def SelfEncoding (program : List SourceInstruction) (address : Word) : Prop :=
  ∃ dest comp jump, program[address.toNat]? = some (.compute dest comp jump) ∧
    Emission.computeWord dest comp jump = .ok address

/-- The machine takes a loop for the idle loop that does not load its own address. -/
def FalseIdle (program : List SourceInstruction) (s : State) : Prop :=
  s.halted = false ∧ (step program s).2 = none ∧
    (∃ dest comp, program[s.pc.toNat]? = some (.compute dest comp (Text.ascii "JMP"))) ∧
    s.a.toNat + 1 = s.pc.toNat ∧ SelfEncoding program s.a

/-- A word is equal to its address if it loads this address, or if it is self-encoding. -/
theorem Loaded.getElem?_eq_self_iff (loaded : Loaded program m) (address : Word) :
    m.program[address.toNat]? = some address ↔
      program[address.toNat]? = some (.load address.toNat) ∨ SelfEncoding program address := by
  rcases loaded.fetch address.toNat with ⟨source, word⟩ | ⟨c, i, source, word, spells⟩
  · simp [SelfEncoding, source, word]
  · rcases spells.cases with ⟨value, rfl, rfl⟩ | ⟨dest, comp, jump, rfl, fields⟩
    · have same : Instruction.encode (.load value) = address ↔ value.val = address.toNat := by
        rw [← UInt16.toNat_inj, Instruction.encode, Format.toNat_addressWord]
      simp [SelfEncoding, source, word, same]
    · have encoded : Emission.computeWord dest comp jump = .ok i.encode := by
        rw [Emission.computeWord, fields]
      simp [SelfEncoding, source, word, encoded]

/-! ## One step -/

section Compute

variable {dest comp jump : Text} {d : Destination} {c : Computation} {j : Jump}
  (hd : Destination.ofText? dest = some d) (hc : Computation.ofText? comp = some c)
  (hj : Jump.ofText? jump = some j)

include hd hc in
theorem fault?_ofMachine (word : Word) :
    m.fault? word (.compute c.readsMemory c.control d j) = fault? (ofMachine m) dest comp := by
  have mapped : Machine.isMapped m.a = true ↔ m.a.toNat ≤ keyboardAddress := by
    rw [Machine.isMapped, decide_eq_true_eq]
    exact Nat.lt_succ_iff
  rw [Machine.fault?, fault?, contains_of_ofText? hc, Destination.eq_of_ofText? hd]
  simp only [mapped]
  rfl

include hc in
theorem result_ofMachine :
    result (ofMachine m) comp =
      c.control.apply m.d (if c.readsMemory then m.memory[m.a.toNat]?.getD 0 else m.a) := by
  rw [result, value?_of_ofText? hc, Computation.apply_control]
  rfl

include hd hc hj in
/-- A computation has the same effect, except that the machine has its own idea of the idle loop. -/
theorem ofMachine_execute (program : List SourceInstruction) :
    ofMachine (m.execute (.compute c.readsMemory c.control d j)) =
      { compute program (ofMachine m) dest comp jump with
        halted := m.halted || m.isIdle j } := by
  rw [m.execute_compute _ _ d j (result_ofMachine hc), Destination.eq_of_ofText? hd, compute,
    jumps_of_ofText? hj]
  rfl

include hj in
/-- The machine takes a loop for idle if it is, or if the instruction before the jump is
self-encoding. -/
theorem isIdle_iff (loaded : Loaded program m) :
    m.isIdle j = true ↔ isIdle program (ofMachine m) jump = true ∨
      (jump = Text.ascii "JMP" ∧ m.a.toNat + 1 = m.pc.toNat ∧ SelfEncoding program m.a) := by
  rw [Machine.isIdle, isIdle, ← isAlways_of_ofText? hj]
  simp only [Bool.and_eq_true, beq_iff_eq, loaded.getElem?_eq_self_iff]
  change _ ↔ (jump = _ ∧ m.a.toNat + 1 = m.pc.toNat) ∧ program[m.a.toNat]? = _ ∨ _
  tauto

end Compute

/-- How a step of the machine compares with a step of the interpreter: they report the same, and
either both end in the same state, or the machine halts and the interpreter does not. -/
def Agrees (program : List SourceInstruction) (m : Machine) : Prop :=
  m.step.2 = (step program (ofMachine m)).2 ∧
    (FalseIdle program (ofMachine m) ∧ m.step.1.halted = true ∧
        (step program (ofMachine m)).1.halted = false ∨
      ¬ FalseIdle program (ofMachine m) ∧ ofMachine m.step.1 = (step program (ofMachine m)).1)

/-- A self-encoding instruction does not load its own address. -/
theorem not_isIdle_of_selfEncoding {s : State} (h : SelfEncoding program s.a) (jump : Text) :
    isIdle program s jump = false := by
  obtain ⟨dest, comp, jump', source, -⟩ := h
  simp [isIdle, source]

theorem agrees_of_compute (loaded : Loaded program m) (running : m.halted = false)
    {dest comp jump : Text} {i : Instruction}
    (source : program[m.pc.toNat]? = some (.compute dest comp jump))
    (word : m.program[m.pc.toNat]? = some i.encode)
    (spells : Instruction.ofFields dest comp jump = .ok i) : Agrees program m := by
  obtain ⟨d, c, j, rfl, hd, hc, hj⟩ := Instruction.ofFields_eq_ok spells
  have format := Format.ofWord_computeWord c.readsMemory c.control d j
  have faults := fault?_ofMachine (m := m) (j := j) hd hc (Instruction.encode (.compute d c j))
  rw [← format] at faults
  cases fault : fault? (ofMachine m) dest comp with
  | some reason =>
    have stepS := step_of_fault running source fault
    rw [Agrees, Machine.step_of_fault running word (faults.trans fault), stepS]
    refine ⟨rfl, .inr ⟨?_, rfl⟩⟩
    rintro ⟨-, fine, -⟩
    rw [stepS] at fine
    cases fine
  | none =>
    have stepM := Machine.step_of_word running word (faults.trans fault)
    have stepS := step_of_compute running source fault
    rw [Instruction.encode, format] at stepM
    have executed := ofMachine_execute (m := m.count) hd hc hj program
    have idle := isIdle_iff (m := m.count) hj loaded
    have counted : m.count.halted = false := running
    rw [counted, Bool.false_or] at executed
    rw [Agrees, stepM, stepS]
    refine ⟨rfl, ?_⟩
    by_cases self : jump = Text.ascii "JMP" ∧ m.a.toNat + 1 = m.pc.toNat ∧ SelfEncoding program m.a
    · left
      obtain ⟨rfl, before, encodes⟩ := self
      refine ⟨⟨running, congrArg Prod.snd stepS, ⟨dest, comp, source⟩, before, encodes⟩, ?_, ?_⟩
      · exact (congrArg State.halted executed).trans (idle.2 (.inr ⟨rfl, before, encodes⟩))
      · exact not_isIdle_of_selfEncoding encodes _
    · right
      constructor
      · rintro ⟨-, -, ⟨_, _, source'⟩, before, encodes⟩
        cases source.symm.trans source'
        exact self ⟨rfl, before, encodes⟩
      · have same : m.count.isIdle j = isIdle program (ofMachine m.count) jump :=
          Bool.eq_iff_iff.2 (idle.trans (or_iff_left self))
        rw [executed, same]
        rfl

/-- One step of the machine compares with one step of the interpreter. -/
theorem step_agrees (loaded : Loaded program m) : Agrees program m := by
  cases halted : m.halted with
  | true =>
    rw [Agrees, Machine.step_of_halted halted, step_of_halted halted]
    refine ⟨rfl, .inr ⟨fun idle => ?_, rfl⟩⟩
    cases halted.symm.trans idle.1
  | false =>
    rcases loaded.fetch m.pc.toNat with ⟨source, word⟩ | ⟨c, i, source, word, spells⟩
    · rw [Agrees, Machine.step_of_end halted word, step_of_end halted source]
      refine ⟨rfl, .inr ⟨?_, rfl⟩⟩
      rintro ⟨-, -, ⟨dest, comp, jump⟩, -⟩
      cases source.symm.trans jump
    · rcases spells.cases with ⟨value, rfl, rfl⟩ | ⟨dest, comp, jump, rfl, fields⟩
      · have format := Format.ofWord_addressWord value
        have fine : m.fault? (Format.addressWord value)
            (.ofWord (Format.addressWord value)) = none := by
          rw [format]
          rfl
        rw [Agrees, Machine.step_of_word halted word fine, step_of_load halted source]
        refine ⟨rfl, .inr ⟨?_, ?_⟩⟩
        · rintro ⟨-, -, ⟨dest, comp, jump⟩, -⟩
          cases source.symm.trans jump
        · rw [Instruction.encode, format]
          rfl
      · exact agrees_of_compute loaded halted source word fields

/-! ## Runs -/

theorem Loaded.after (loaded : Loaded program m) (n : Nat) : Loaded program (m.after n) := by
  rw [Loaded, m.program_after n]
  exact loaded

theorem Loaded.length_eq (loaded : Loaded program m) : program.length = m.program.size := by
  rw [← Array.length_toList]
  exact List.Forall₂.length_eq loaded

/-- The machine and the interpreter stay in the same state up to step `N` exactly if the interpreter
does not get to a false idle loop before. -/
theorem after_eq_run_iff (loaded : Loaded program m) (N : Nat) :
    (∀ n ≤ N, ofMachine (m.after n) = run program n (ofMachine m)) ↔
      ∀ n < N, ¬ FalseIdle program (run program n (ofMachine m)) := by
  constructor
  · intro same n before idle
    have next := same (n + 1) before
    rw [Machine.after_succ, run_succ, ← same n (Nat.le_of_lt before)] at next
    rw [← same n (Nat.le_of_lt before)] at idle
    rcases (step_agrees (loaded.after n)).2 with ⟨-, halts, goesOn⟩ | ⟨noIdle, -⟩
    · have flags := congrArg State.halted next
      rw [goesOn] at flags
      cases halts.symm.trans flags
    · exact noIdle idle
  · intro noIdle n upTo
    induction n with
    | zero => rfl
    | succ n ih =>
      have same := ih (Nat.le_of_lt upTo)
      rcases (step_agrees (loaded.after n)).2 with ⟨idle, -⟩ | ⟨-, next⟩
      · rw [same] at idle
        exact absurd idle (noIdle n upTo)
      · rw [Machine.after_succ, run_succ, next, same]

/-- A false idle loop lies beyond the words that are addresses and the reserved words. -/
theorem FalseIdle.lt_length {s : State} (h : FalseIdle program s) : 57345 < program.length := by
  obtain ⟨-, -, ⟨_, _, jump⟩, before, _, _, _, -, encoded⟩ := h
  obtain ⟨i, fields, word⟩ := Emission.computeWord_eq_ok encoded
  obtain ⟨d, c, j, rfl, -⟩ := Instruction.ofFields_eq_ok fields
  have large : 57344 ≤ s.a.toNat := by
    rw [word]
    exact Format.le_toNat_computeWord c.readsMemory c.control d j
  have inside := (List.getElem?_eq_some_iff.1 jump).1
  omega

/-! ## Programs that assemble -/

/-- Every operation of a program that assembles means an instruction. -/
theorem exists_means_of_mem {lines : List SourceLine} {p : Program}
    (h : assembleLines lines = .ok p) {op : Operation} (hop : op ∈ operations lines) :
    ∃ i, Means lines op i := by
  obtain ⟨instructions, means, -⟩ := exists_means_of_assembleLines_ok h
  generalize operations lines = ops at means hop
  induction means with
  | nil => cases hop
  | cons first _ ih =>
    rcases List.mem_cons.1 hop with rfl | hop
    · exact ⟨_, first⟩
    · exact ih hop

/-- Every name of a program that assembles stands for an address. -/
theorem isSome_binding?_of_mem {lines : List SourceLine} {p : Program}
    (h : assembleLines lines = .ok p) {name : Text}
    (hop : .address (.symbol name) ∈ operations lines) : (binding? lines name).isSome := by
  obtain ⟨i, means⟩ := exists_means_of_mem h hop
  cases i with
  | load address =>
    obtain ⟨kind, bound⟩ := means
    rw [bound]
    rfl
  | compute => exact means.elim

/-- Every mnemonic of a program that assembles denotes a value. -/
theorem isSome_value?_of_mem {lines : List SourceLine} {p : Program}
    (h : assembleLines lines = .ok p) {dest comp jump : Text}
    (hop : .compute dest comp jump ∈ operations lines) (a d m : Word) :
    (value? a d m comp).isSome := by
  obtain ⟨i, means⟩ := exists_means_of_mem h hop
  obtain ⟨_, c, _, rfl, -, hc, -⟩ := Instruction.ofFields_eq_ok means
  rw [value?_of_ofText? hc]
  rfl

/-- A machine with the words of a program that assembles runs the source program.

Every name of the program has an address and every mnemonic a value.  From any state on, the machine
and the interpreter are in the same state after each of the first `N` steps exactly if the
interpreter has not got to a false idle loop before, which it never does in a program of at most 57345
instructions.  In the same state they also report the same, and what the machine reports is always
about a memory cell that does not exist. -/
theorem machine_follows_source {lines : List SourceLine} {p : Program}
    (assembled : assembleLines lines = .ok p) {m : Machine} (loaded : m.program = p.words) :
    ((∀ name, .address (.symbol name) ∈ operations lines → (binding? lines name).isSome) ∧
      ∀ dest comp jump, .compute dest comp jump ∈ operations lines →
        ∀ a d m, (value? a d m comp).isSome) ∧
    (∀ N, (∀ n ≤ N, ofMachine (m.after n) = run (sourceProgram lines) n (ofMachine m)) ↔
      ∀ n < N, ¬ FalseIdle (sourceProgram lines) (run (sourceProgram lines) n (ofMachine m))) ∧
    (∀ n, ofMachine (m.after n) = run (sourceProgram lines) n (ofMachine m) →
      (m.after n).step.2 =
        (step (sourceProgram lines) (run (sourceProgram lines) n (ofMachine m))).2) ∧
    (∀ n fault, (m.after n).step.2 = some fault → 24576 < (m.after n).a.toNat ∧
      (fault = .unmappedRead (m.after n).a (m.after n).pc ∨
        fault = .unmappedWrite (m.after n).a (m.after n).pc)) ∧
    (p.words.size ≤ 57345 →
      ∀ n, ofMachine (m.after n) = run (sourceProgram lines) n (ofMachine m)) := by
  have spelled := loaded_of_assembleLines_ok assembled loaded
  have reports : ∀ n, (m.after n).step.2 =
      (step (sourceProgram lines) (ofMachine (m.after n))).2 := fun n =>
    (step_agrees (spelled.after n)).1
  refine ⟨⟨fun _ => isSome_binding?_of_mem assembled, fun _ _ _ => isSome_value?_of_mem assembled⟩,
    after_eq_run_iff spelled, fun n same => ?_, fun n fault fails => ?_, fun short n => ?_⟩
  · rw [reports, same]
  · rw [reports] at fails
    exact step_eq_some_fault fails
  · refine (after_eq_run_iff spelled n).2 (fun k _ idle => ?_) n (Nat.le_refl n)
    have long := idle.lt_length
    rw [spelled.length_eq, loaded] at long
    omega

/-- The usual idle loop. -/
def idleLoop : List SourceLine := [⟨1, Text.ascii "@0"⟩, ⟨2, Text.ascii "0;JMP"⟩]

theorem machine_follows_source_idleLoop :
    ∃ p, assembleLines idleLoop = .ok p ∧ p.words = #[0, 0xEA87] ∧
      ∀ n, ofMachine ((Machine.load p.words).after n) =
        run (sourceProgram idleLoop) n (ofMachine (.load p.words)) := by
  have words : (assembleLines idleLoop).map (fun p => p.words) = .ok #[0, 0xEA87] := rfl
  cases assembled : assembleLines idleLoop with
  | ok p =>
    rw [assembled] at words
    have two : p.words = #[0, 0xEA87] := Except.ok.inj words
    have short : p.words.size ≤ 57345 := by rw [two]; decide
    exact ⟨p, rfl, two, (machine_follows_source assembled rfl).2.2.2.2 short⟩
  | error fault =>
    rw [assembled] at words
    cases words

/-! ## A false idle loop -/

/-- A program that counts in `D` without end.  The word of its last instruction but one is equal to
the address of this instruction, 59344. -/
def countingLoop : List Instruction :=
  List.replicate 59344 (.compute ⟨false, false, false⟩ .zero .never) ++
    [.compute ⟨false, true, false⟩ (.data .increment) .never,
      .compute ⟨false, false, false⟩ .zero .always]

theorem getElem?_countingLoop (k : Nat) :
    countingLoop[59344 + k]? =
      [.compute ⟨false, true, false⟩ (.data .increment) .never,
        .compute ⟨false, false, false⟩ .zero .always][k]? := by
  have size : (List.replicate 59344
      (Instruction.compute ⟨false, false, false⟩ .zero .never)).length = 59344 :=
    List.length_replicate
  rw [countingLoop, List.getElem?_append_right (by rw [size]; omega), size, Nat.add_sub_cancel_left]

/-- The instruction at an address of a program that has been disassembled. -/
theorem getElem?_sourceProgram {instructions : List Instruction} {k : Nat} {i : Instruction}
    (h : instructions[k]? = some i) :
    (sourceProgram (instructionLines instructions))[k]? =
      some (resolve (instructionLines instructions) i.operation) := by
  rw [sourceProgram, operations_instructionLines, List.getElem?_map, List.getElem?_map, h]
  rfl

/-- At the jump of the counting loop the machine halts, and the interpreter goes on. -/
theorem machine_halts_in_counting_loop :
    ∃ p m, assembleLines (instructionLines countingLoop) = .ok p ∧
      m = { Machine.load p.words with a := 59344, pc := 59345 } ∧
      (m.after 1).halted = true ∧
      (run (sourceProgram (instructionLines countingLoop)) 1 (ofMachine m)).halted = false := by
  obtain ⟨p, assembled⟩ := exists_assembleLines_instructionLines countingLoop
  refine ⟨p, _, assembled, rfl, ?_⟩
  generalize start : { Machine.load p.words with a := 59344, pc := 59345 } = m
  have loaded := loaded_of_assembleLines_ok assembled (m := m) (by rw [← start]; rfl)
  have running : (ofMachine m).halted = false := by rw [← start]; rfl
  have a : (ofMachine m).a = 59344 := by rw [← start]; rfl
  have pc : (ofMachine m).pc = 59345 := by rw [← start]; rfl
  have count := getElem?_sourceProgram (getElem?_countingLoop 0)
  have jump := getElem?_sourceProgram (getElem?_countingLoop 1)
  have idle : FalseIdle (sourceProgram (instructionLines countingLoop)) (ofMachine m) := by
    have here : 59344 + 1 = (ofMachine m).pc.toNat := by rw [pc]; rfl
    have before : 59344 + 0 = (ofMachine m).a.toNat := by rw [a]; rfl
    have fine : fault? (ofMachine m) [] (Text.ascii "0") = none := by
      rw [fault?, a]
      rfl
    have self : Emission.computeWord (Text.ascii "D") (Text.ascii "D+1") [] = .ok 59344 := rfl
    rw [here] at jump
    rw [before] at count
    refine ⟨running, ?_, ⟨_, _, jump⟩, ?_, ⟨_, _, _, count, self.trans (by rw [a])⟩⟩
    · rw [step_of_compute running jump fine]
    · rw [← before, ← here]
  rw [Machine.after_succ, Machine.after_zero, run_succ, run_zero]
  rcases (step_agrees loaded).2 with ⟨-, halts, goesOn⟩ | ⟨noIdle, -⟩
  · exact ⟨halts, goesOn⟩
  · exact absurd idle noIdle

end Interpreter
end HackMachine
