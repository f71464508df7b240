import HackMachine.Symbol.Basic
import HackMachine.Text.Numeral
import HackMachine.Word

/-!
# The machine

The machine has two registers `A` and `D`, a program counter, a program that it only reads, and a
memory of `memorySize` cells, the last of which is the keyboard register.  A word can hold more
addresses than there are cells, so access to memory can fail.

The machine also counts the instructions it has executed.  The counter is a signed 64-bit number.
-/

namespace HackMachine

/-- The number of memory cells. -/
abbrev memorySize : Nat := 24577

/-- Why the machine cannot go on. -/
inductive MachineFault where
  /-- There is no cell to read at this address; `pc` is the program counter. -/
  | unmappedRead (address pc : Word)
  /-- There is no cell to write at this address. -/
  | unmappedWrite (address pc : Word)
  /-- The word at the program counter is reserved. -/
  | malformed (word pc : Word)
  /-- The instruction counter has reached the limit of the run. -/
  | stepLimit (limit : Int64)
  deriving DecidableEq

namespace MachineFault

/-- The place of a fault in words. -/
def atCounter (pc : Word) : Text := Text.ascii " at PC=" ++ Text.decimal pc.toNat

/-- What is reported about a fault. -/
def message : MachineFault → Text
  | .unmappedRead address pc =>
    Text.ascii "read from unmapped address " ++ Text.decimal address.toNat ++ atCounter pc
  | .unmappedWrite address pc =>
    Text.ascii "write to unmapped address " ++ Text.decimal address.toNat ++ atCounter pc
  | .malformed word pc =>
    Text.ascii "malformed instruction: " ++ word.binary ++ atCounter pc
  | .stepLimit limit =>
    Text.ascii "step limit reached: " ++ Text.signedDecimal limit.toInt

end MachineFault

/-- The state of the machine. -/
structure Machine where
  a : Word
  d : Word
  pc : Word
  memory : Vector Word memorySize
  program : Array Word
  halted : Bool
  steps : Int64

namespace Machine

/-- A machine about to start a program, with everything else zero. -/
def load (program : Array Word) : Machine :=
  { a := 0, d := 0, pc := 0, memory := Vector.replicate memorySize 0, program := program,
    halted := false, steps := 0 }

/-- Whether there is a cell at an address. -/
def isMapped (address : Word) : Bool := address.toNat < memorySize

/-- The content of a cell, and zero where there is none. -/
def cell (m : Machine) (address : Word) : Word :=
  if h : address.toNat < memorySize then m.memory[address.toNat] else 0

/-- The machine after a value has been stored in a cell, if there is one at the address. -/
def store (m : Machine) (address value : Word) : Machine :=
  if h : address.toNat < memorySize then
    { m with memory := m.memory.set address.toNat value h }
  else m

theorem cell_store (m : Machine) {address : Word} (h : isMapped address) (value other : Word) :
    (m.store address value).cell other = if address = other then value else m.cell other := by
  have mapped : address.toNat < memorySize := by simpa [isMapped] using h
  by_cases same : address = other
  · subst same
    simp [store, cell, mapped]
  · have apart : address.toNat ≠ other.toNat := fun e => same (UInt16.toNat_inj.1 e)
    simp only [store, cell, mapped, dite_true, same, if_false]
    split
    · simp [apart]
    · rfl

/-- Read a cell. -/
def read (m : Machine) (address : Word) : Except MachineFault Word :=
  if isMapped address then .ok (m.cell address) else .error (.unmappedRead address m.pc)

/-- Write a cell. -/
def write (m : Machine) (address value : Word) : Except MachineFault Machine :=
  if isMapped address then .ok (m.store address value) else .error (.unmappedWrite address m.pc)

/-- The cells that are not zero, with their addresses. -/
def nonzeroCells (m : Machine) : List (Nat × Word) :=
  m.memory.toList.zipIdx.filterMap fun entry =>
    if entry.1 = 0 then none else some (entry.2, entry.1)

end Machine
end HackMachine
