import HackMachine.Machine.Basic
import HackMachine.Proofs.Assembly.Meaning
import HackMachine.Proofs.Instruction.Text
import HackMachine.Proofs.Machine.Arithmetic
import Mathlib.Logic.Function.Iterate

/-!
# An interpreter for source programs

The machine executes words.  The interpreter here executes a program as it is written: its
instructions are the instruction lines, with names replaced by the addresses they are bound to, and
the fields of a computation are taken as text.

* `value?` is what a mnemonic denotes.  It is built from the letters of the operands and the signs
  between them, so `D+M` and `M+D` need no table.
* The letters of the destination say where the result goes, and the name of the jump says on which
  results control moves to the address in `A`.
* Only access to a memory cell that does not exist fails.
* The interpreter halts when the program counter is past the end, and on an unconditional jump back
  to an instruction that loads its own address.

No instruction is encoded here, and nothing depends on the bits of a word.
-/

namespace HackMachine

/-- An instruction as it is written, with names replaced by addresses. -/
inductive SourceInstruction where
  | load (address : Nat)
  | compute (dest comp jump : Text)
  deriving DecidableEq

namespace Meaning

/-- The address that a name stands for. -/
def addressOf (lines : List SourceLine) (name : Text) : Nat :=
  (binding? lines name).elim 0 fun binding => binding.address.toNat

/-- An operation with its name, if it has one, replaced by an address. -/
def resolve (lines : List SourceLine) : Operation → SourceInstruction
  | .address (.literal value) => .load value
  | .address (.symbol name) => .load (addressOf lines name)
  | .compute dest comp jump => .compute dest comp jump

/-- The instructions of a program. -/
def sourceProgram (lines : List SourceLine) : List SourceInstruction :=
  (operations lines).map (resolve lines)

end Meaning

namespace Interpreter

/-! ## Mnemonics -/

/-- The value of the letter or digit of an operand, given the registers and the memory cell. -/
def operand? (a d m : Word) (letter : UInt8) : Option Word :=
  if letter = Text.byte 'A' then some a
  else if letter = Text.byte 'D' then some d
  else if letter = Text.byte 'M' then some m
  else if letter = Text.byte '0' then some 0
  else if letter = Text.byte '1' then some 1
  else none

/-- The value of a sign in front of an operand. -/
def signed? (sign : UInt8) (x : Word) : Option Word :=
  if sign = Text.byte '!' then some (~~~x)
  else if sign = Text.byte '-' then some (-x)
  else none

/-- The value of a sign between two operands. -/
def combined? (sign : UInt8) (x y : Word) : Option Word :=
  if sign = Text.byte '+' then some (x + y)
  else if sign = Text.byte '-' then some (x - y)
  else if sign = Text.byte '&' then some (x &&& y)
  else if sign = Text.byte '|' then some (x ||| y)
  else none

/-- The value that a mnemonic denotes. -/
def value? (a d m : Word) : Text → Option Word
  | [x] => operand? a d m x
  | [sign, x] => (operand? a d m x).bind (signed? sign)
  | [x, sign, y] =>
    (operand? a d m x).bind fun u => (operand? a d m y).bind fun v => combined? sign u v
  | _ => none

/-- Whether a jump with this name is taken on a result. -/
def jumps (name : Text) (result : Int) : Bool :=
  if name = Text.ascii "JGT" then 0 < result
  else if name = Text.ascii "JEQ" then result = 0
  else if name = Text.ascii "JGE" then 0 ≤ result
  else if name = Text.ascii "JLT" then result < 0
  else if name = Text.ascii "JNE" then result ≠ 0
  else if name = Text.ascii "JLE" then result ≤ 0
  else name = Text.ascii "JMP"

/-! ## Execution -/

/-- The state of the interpreter. -/
structure State where
  a : Word
  d : Word
  pc : Word
  memory : Vector Word memorySize
  halted : Bool
  steps : Int64

/-- What keeps a computation from being executed: it reads or writes a cell that does not exist. -/
def fault? (s : State) (dest comp : Text) : Option MachineFault :=
  if s.a.toNat ≤ keyboardAddress then none
  else if comp.contains (Text.byte 'M') then some (.unmappedRead s.a s.pc)
  else if dest.contains (Text.byte 'M') then some (.unmappedWrite s.a s.pc)
  else none

/-- Whether a jump closes the idle loop: it is unconditional, and it goes to the instruction right
before it, which loads its own address. -/
def isIdle (program : List SourceInstruction) (s : State) (jump : Text) : Bool :=
  jump == Text.ascii "JMP" && s.a.toNat + 1 == s.pc.toNat &&
    program[s.a.toNat]? == some (.load s.a.toNat)

/-- The result of a mnemonic in a state. -/
def result (s : State) (comp : Text) : Word :=
  (value? s.a s.d (s.memory[s.a.toNat]?.getD 0) comp).getD 0

/-- Execute a computation.  A jump and a store to memory both use the address that was in `A`
before. -/
def compute (program : List SourceInstruction) (s : State) (dest comp jump : Text) : State :=
  let out := result s comp
  { a := if dest.contains (Text.byte 'A') then out else s.a
    d := if dest.contains (Text.byte 'D') then out else s.d
    pc := if jumps jump out.toSigned then s.a else s.pc + 1
    memory :=
      if dest.contains (Text.byte 'M') then s.memory.setIfInBounds s.a.toNat out else s.memory
    halted := isIdle program s jump
    steps := s.steps }

/-- One step: the state after it, and the fault if it failed. -/
def step (program : List SourceInstruction) (s : State) : State × Option MachineFault :=
  if s.halted then (s, none)
  else
    match program[s.pc.toNat]? with
    | none => ({ s with halted := true }, none)
    | some (.load address) =>
      ({ s with a := UInt16.ofNat address, pc := s.pc + 1, steps := s.steps + 1 }, none)
    | some (.compute dest comp jump) =>
      let counted := { s with steps := s.steps + 1 }
      match fault? s dest comp with
      | some fault => (counted, some fault)
      | none => (compute program counted dest comp jump, none)

section Steps

variable {program : List SourceInstruction} {s : State} (running : s.halted = false)

theorem step_of_halted (halted : s.halted = true) : step program s = (s, none) := by
  simp [step, halted]

include running

theorem step_of_end (fetch : program[s.pc.toNat]? = none) :
    step program s = ({ s with halted := true }, none) := by
  simp [step, running, fetch]

theorem step_of_load {address : Nat} (fetch : program[s.pc.toNat]? = some (.load address)) :
    step program s =
      ({ s with a := UInt16.ofNat address, pc := s.pc + 1, steps := s.steps + 1 }, none) := by
  simp [step, running, fetch]

variable {dest comp jump : Text}

theorem step_of_fault (fetch : program[s.pc.toNat]? = some (.compute dest comp jump))
    {fault : MachineFault} (fails : fault? s dest comp = some fault) :
    step program s = ({ s with steps := s.steps + 1 }, some fault) := by
  simp [step, running, fetch, fails]

theorem step_of_compute (fetch : program[s.pc.toNat]? = some (.compute dest comp jump))
    (fine : fault? s dest comp = none) :
    step program s = (compute program { s with steps := s.steps + 1 } dest comp jump, none) := by
  simp [step, running, fetch, fine]

end Steps

theorem fault?_eq_some {s : State} {dest comp : Text} {fault : MachineFault}
    (h : fault? s dest comp = some fault) :
    keyboardAddress < s.a.toNat ∧
      (fault = .unmappedRead s.a s.pc ∨ fault = .unmappedWrite s.a s.pc) := by
  unfold fault? at h
  split at h
  · cases h
  · next unmapped =>
    refine ⟨Nat.lt_of_not_le unmapped, ?_⟩
    split at h
    · exact .inl (Option.some.inj h).symm
    · split at h
      · exact .inr (Option.some.inj h).symm
      · cases h

/-- The interpreter fails only where there is no memory cell. -/
theorem step_eq_some_fault {program : List SourceInstruction} {s : State} {fault : MachineFault}
    (h : (step program s).2 = some fault) :
    keyboardAddress < s.a.toNat ∧
      (fault = .unmappedRead s.a s.pc ∨ fault = .unmappedWrite s.a s.pc) := by
  unfold step at h
  split at h
  · cases h
  · split at h
    · cases h
    · cases h
    · simp only at h
      split at h
      · next found =>
        cases h
        exact fault?_eq_some found
      · cases h

/-- The state after some steps, failed or not. -/
def run (program : List SourceInstruction) (n : Nat) (s : State) : State :=
  (fun s => (step program s).1)^[n] s

@[simp] theorem run_zero (program : List SourceInstruction) (s : State) :
    run program 0 s = s := rfl

theorem run_succ (program : List SourceInstruction) (n : Nat) (s : State) :
    run program (n + 1) s = (step program (run program n s)).1 :=
  Function.iterate_succ_apply' _ n s

/-! ## The mnemonics of the assembly language

A text that is read as a computation, a destination or a jump has the meaning of what it is read
as. -/

section Mnemonics

variable {a d m : Word} {t : Text}

/-- The printed spelling of a computation denotes its value. -/
theorem value?_text (c : Computation) :
    value? a d m c.text = some (c.value d (if c.readsMemory then m else a)) := by
  rcases c with _ | _ | _ | op | ⟨op, y⟩ | ⟨op, y⟩
  · rfl
  · rfl
  · rfl
  · cases op <;> rfl
  · cases op <;> cases y <;> rfl
  · cases op <;> cases y <;> rfl

/-- An operator that allows it gives the same value with its operands exchanged. -/
theorem combined?_comm {sign : UInt8} (h : Computation.isCommutative sign) (x y : Word) :
    combined? sign x y = combined? sign y x := by
  have cases : sign = Text.byte '+' ∨ sign = Text.byte '&' ∨ sign = Text.byte '|' := by
    simpa [Computation.isCommutative, or_assoc] using h
  rcases cases with rfl | rfl | rfl
  · exact congrArg some (UInt16.add_comm x y)
  · exact congrArg some (UInt16.and_comm x y)
  · exact congrArg some (UInt16.or_comm x y)

/-- The order of exchangeable operands does not matter. -/
theorem value?_canonical (t : Text) : value? a d m (Computation.canonical t) = value? a d m t := by
  unfold Computation.canonical
  split
  · next x sign y =>
    split
    · next exchanged =>
      have comm := combined?_comm (Bool.and_eq_true_iff.1 exchanged).1
      simp only [value?]
      cases operand? a d m x with
      | none => cases operand? a d m y <;> rfl
      | some u =>
        cases operand? a d m y with
        | none => rfl
        | some v => exact comm v u
    · rfl
  · rfl

variable {c : Computation}

theorem value?_of_ofText? (h : Computation.ofText? t = some c) :
    value? a d m t = some (c.value d (if c.readsMemory then m else a)) := by
  rw [← value?_canonical, ← Computation.text_of_ofText? h, value?_text]

/-- A computation reads the memory cell exactly if its mnemonic mentions it. -/
theorem contains_of_ofText? (h : Computation.ofText? t = some c) :
    t.contains (Text.byte 'M') = c.readsMemory := by
  have listed : ∀ c ∈ Computation.all, c.text.contains (Text.byte 'M') = c.readsMemory := by decide
  rw [← Computation.contains_canonical, ← Computation.text_of_ofText? h]
  exact listed c c.mem_all

/-- The name of a jump says on which results it is taken. -/
theorem jumps_text (jump : Jump) (result : Int) :
    jumps jump.text result =
      if result = 0 then jump.zero
      else if result < 0 then jump.negative
      else jump.positive := by
  rcases jump with ⟨_ | _, _ | _, _ | _⟩ <;> simp +decide only [jumps, if_true, if_false] <;> grind

variable {j : Jump}

theorem jumps_of_ofText? (h : Jump.ofText? t = some j) (w : Word) :
    jumps t w.toSigned = j.holds w := by
  rw [← Jump.text_of_ofText? h, jumps_text, Jump.holds_eq]

/-- Only one name is that of the jump that is always taken. -/
theorem isAlways_of_ofText? (h : Jump.ofText? t = some j) :
    (t == Text.ascii "JMP") = (j == .always) := by
  rw [← Jump.text_of_ofText? h]
  rcases j with ⟨_ | _, _ | _, _ | _⟩ <;> rfl

end Mnemonics

end Interpreter
end HackMachine
