import HackMachine.Proofs.Disassembly
import HackMachine.Proofs.Listing
import HackMachine.Proofs.Machine.Run

/-!
# Programs without jumps

A program is a *straight line* if none of its instructions jumps and none has to do with memory.
Such a program cannot fail, and each instruction is followed by the one behind it, so one expects
that the machine executes every instruction once, and halts because it has come to the end.

## How far the program counter goes

The program counter is a word.  It can hold the address behind the last instruction only if the
program has fewer than `UInt16.size` words.  In a longer program the counter goes from the highest
address back to zero, and it never leaves the program.  Nothing keeps a program from being so long:
a listing of any length can be read, and a source of any length can be assembled as long as it needs
no address above its limit.

* `IsAt.step` is one step: the machine that has executed `n` instructions executes one more.
* `ends_of_isAt` is the way to the end of a program that the counter can leave.
* `run_eq_none_of_isAt` is the way round in one that it cannot leave.
* `straightLine_run` says both of a machine that has just been loaded, and `straightLine_goes_round`
  is a program of the second kind.
-/

namespace HackMachine

/-- Whether a word with these fields is executed without access to memory, and then goes on to the
next word. -/
def Format.isStraight : Format → Bool
  | .address _ => true
  | .compute memory _ dest jump => !memory && !dest.m && jump == .never
  | .reserved => false

/-- A program whose instructions neither jump nor read nor write memory. -/
def IsStraightLine (program : Array Word) : Prop :=
  ∀ word ∈ program, (Format.ofWord word).isStraight = true

instance (program : Array Word) : Decidable (IsStraightLine program) :=
  decidable_of_iff (program.toList.all fun word => (Format.ofWord word).isStraight) <| by
    simp only [IsStraightLine, List.all_eq_true, Array.mem_toList_iff]

namespace Machine

variable {m : Machine} {program : Array Word} {n : Nat}

/-! ## One instruction -/

theorem fault?_of_isStraight {format : Format} (straight : format.isStraight = true) (m : Machine)
    (word : Word) : m.fault? word format = none := by
  cases format with
  | address value => rfl
  | reserved => cases straight
  | compute memory control dest jump =>
    simp only [Format.isStraight, Bool.and_eq_true, Bool.not_eq_true'] at straight
    obtain ⟨⟨noRead, noWrite⟩, -⟩ := straight
    simp [fault?, noRead, noWrite]

/-- An instruction of a straight line moves the counter by one and does not halt the machine. -/
theorem execute_of_isStraight {format : Format} (straight : format.isStraight = true)
    (m : Machine) :
    (m.execute format).pc = m.pc + 1 ∧ (m.execute format).halted = m.halted := by
  cases format with
  | address value => exact ⟨rfl, rfl⟩
  | reserved => cases straight
  | compute memory control dest jump =>
    obtain ⟨-, isNever⟩ := Bool.and_eq_true_iff.1 straight
    obtain rfl : jump = .never := eq_of_beq isNever
    have noJump : ∀ out, Jump.never.holds out = false := by
      intro out
      simp [Jump.holds, Jump.never]
    have noIdle : m.isIdle .never = false := rfl
    rw [m.execute_compute memory control dest .never rfl]
    simp [noJump, noIdle]

/-- The machine is running a program and has executed `n` instructions in a straight line.  Both of
its counters show this number, as far as they can. -/
structure IsAt (program : Array Word) (n : Nat) (m : Machine) : Prop where
  program : m.program = program
  running : m.halted = false
  pc : m.pc = UInt16.ofNat n
  steps : m.steps = Int64.ofNat n

theorem isAt_load (program : Array Word) : IsAt program 0 (load program) := ⟨rfl, rfl, rfl, rfl⟩

/-- The next instruction is executed if the counter points into the program. -/
theorem IsAt.step (here : IsAt program n m) (straight : IsStraightLine program)
    (inside : n % UInt16.size < program.size) :
    ∃ word next, m.program[m.pc.toNat]? = some word ∧ m.step = (next, none) ∧
      IsAt program (n + 1) next := by
  have counter : m.pc.toNat = n % UInt16.size := by
    rw [here.pc, UInt16.toNat_ofNat']
  have bound : m.pc.toNat < m.program.size := by
    rw [counter, here.program]
    exact inside
  have fetch : m.program[m.pc.toNat]? = some m.program[m.pc.toNat] :=
    Array.getElem?_eq_getElem bound
  have isStraight : (Format.ofWord m.program[m.pc.toNat]).isStraight = true := by
    apply straight
    rw [← here.program]
    exact Array.getElem_mem bound
  have step := step_of_word here.running fetch (fault?_of_isStraight isStraight m _)
  obtain ⟨pc, halted⟩ := execute_of_isStraight isStraight m.count
  refine ⟨_, _, fetch, step, ?_, ?_, ?_, ?_⟩
  · rw [program_execute]
    exact here.program
  · rw [halted]
    exact here.running
  · rw [pc, count, here.pc, UInt16.ofNat_add]
    rfl
  · rw [steps_execute, count, here.steps, Int64.ofNat_add]
    rfl

/-! ## All instructions -/

/-- As long as the counter cannot have left the program, each step has executed one instruction. -/
theorem isAt_after (straight : IsStraightLine program) (n : Nat)
    (inside : n ≤ program.size ∨ UInt16.size ≤ program.size) :
    IsAt program n ((load program).after n) := by
  induction n with
  | zero => exact isAt_load program
  | succ n ih =>
    have below : n % UInt16.size < program.size := by
      have low : n % UInt16.size < UInt16.size := Nat.mod_lt n (by decide)
      have le := Nat.mod_le n UInt16.size
      omega
    obtain ⟨_, next, -, step, there⟩ := (ih (by omega)).step straight below
    rw [after_succ, step]
    exact there

/-- A program that the counter can leave is left when all of it has been executed. -/
theorem ends_of_isAt (straight : IsStraightLine program) (short : program.size < UInt16.size)
    {left : Nat} (here : IsAt program n m) (ahead : n + left = program.size) :
    ∃ last, IsAt program program.size last ∧ Ends m left { last with halted := true } none := by
  induction left generalizing n m with
  | zero =>
    obtain rfl : n = program.size := ahead
    refine ⟨m, here, .leaves here.running ?_⟩
    rw [here.program, here.pc, UInt16.toNat_ofNat_of_lt' short]
    exact Array.getElem?_eq_none (Nat.le_refl _)
  | succ left ih =>
    have below : n % UInt16.size < program.size := by
      rw [Nat.mod_eq_of_lt (by omega)]
      omega
    obtain ⟨_, next, fetch, step, there⟩ := here.step straight below
    obtain ⟨last, atEnd, ends⟩ := ih there (by omega)
    exact ⟨last, atEnd, .executes here.running fetch step ends⟩

/-- A program that the counter cannot leave goes on, whatever the fuel. -/
theorem run_eq_none_of_isAt (straight : IsStraightLine program)
    (long : UInt16.size ≤ program.size) {limit : Int64} (unlimited : limit ≤ 0)
    (here : IsAt program n m) (fuel : Nat) : run limit fuel m = none := by
  induction fuel generalizing n m with
  | zero => rfl
  | succ fuel ih =>
    have below : n % UInt16.size < program.size :=
      Nat.lt_of_lt_of_le (Nat.mod_lt n (by decide)) long
    obtain ⟨_, next, -, step, there⟩ := here.step straight below
    rw [run_of_step here.running (limitReached_of_nonpos unlimited m) step]
    exact ih there

/-- The run of a straight line without a limit, on a machine that has just been loaded.

* If the program has fewer words than a word has values, the machine halts behind the last
  instruction.  It has executed as many instructions as there are, and the one executed after `n`
  others is the one at address `n`.
* If it has more words, or as many, the run does not come to an end. -/
theorem straightLine_run (straight : IsStraightLine program) {limit : Int64}
    (unlimited : limit ≤ 0) :
    (program.size < UInt16.size →
      (∃ fuel final, run limit fuel (load program) = some (final, none) ∧ final.halted = true ∧
        final.steps.toInt = program.size ∧ final.pc.toNat = program.size) ∧
      ∀ n < program.size, ((load program).after n).halted = false ∧
        ((load program).after n).pc.toNat = n ∧ ((load program).after n).steps.toInt = n) ∧
    (UInt16.size ≤ program.size → ∀ fuel, run limit fuel (load program) = none) := by
  have counters : ∀ {n : Nat} {m : Machine}, n < UInt16.size → IsAt program n m →
      m.pc.toNat = n ∧ m.steps.toInt = n := by
    intro n m small here
    constructor
    · rw [here.pc, UInt16.toNat_ofNat_of_lt' small]
    · rw [here.steps]
      exact Int64.toInt_ofNat_of_lt (Nat.lt_trans small (by decide))
  refine ⟨fun short => ⟨?_, fun n inside => ?_⟩, fun long fuel => ?_⟩
  · obtain ⟨last, atEnd, ends⟩ :=
      ends_of_isAt straight short (isAt_load program) (Nat.zero_add program.size)
    obtain ⟨fuel, ran⟩ := ends.exists_run unlimited
    obtain ⟨pc, steps⟩ := counters short atEnd
    exact ⟨fuel, _, ran, rfl, steps, pc⟩
  · have here := isAt_after straight n (.inl (Nat.le_of_lt inside))
    exact ⟨here.running, counters (Nat.lt_trans inside short) here⟩
  · exact run_eq_none_of_isAt straight long unlimited (isAt_load program) fuel

/-- Three instructions, the last of which stores in both registers. -/
theorem straightLine_run_increment :
    IsStraightLine #[7, 0xEC10, 0xE7F0] ∧ ∃ fuel final,
      run 0 fuel (load #[7, 0xEC10, 0xE7F0]) = some (final, none) ∧ final.halted = true ∧
        final.steps.toInt = 3 ∧ final.pc.toNat = 3 := by
  have straight : IsStraightLine #[7, 0xEC10, 0xE7F0] := by decide
  exact ⟨straight, ((straightLine_run straight (Int64.le_refl 0)).1 (by decide)).1⟩

/-! ## A program that goes round -/

/-- As many instructions as there are words, each of which loads zero. -/
def longLine : List Instruction := List.replicate UInt16.size (.load 0)

/-- A program can be too long to be left.  It is a straight line, it can be assembled from a source
and read from a listing, and its run without a limit does not come to an end. -/
theorem straightLine_goes_round :
    ∃ source p, assembleText source = .ok p ∧ listingWords (listing p.words) = .ok p.words.toList ∧
      IsStraightLine p.words ∧ p.words.size = 65536 ∧ ∀ fuel, run 0 fuel (load p.words) = none := by
  obtain ⟨p, assembled, words, -⟩ := assembleText_assemblyText longLine
  have size : p.words.size = UInt16.size := by
    rw [← Array.length_toList, words, List.length_map, longLine, List.length_replicate]
  have straight : IsStraightLine p.words := by
    intro word hword
    rw [← Array.mem_toList_iff, words] at hword
    obtain ⟨i, hi, rfl⟩ := List.mem_map.1 hword
    obtain rfl := List.eq_of_mem_replicate hi
    rfl
  exact ⟨_, p, assembled, listingWords_listing p.words, straight, size,
    run_eq_none_of_isAt straight (Nat.le_of_eq size.symm) (Int64.le_refl 0) (isAt_load p.words)⟩

end Machine
end HackMachine
