import HackMachine.Instruction.Format
import HackMachine.Machine.Basic

/-!
# Steps and runs

A step fetches the word at the program counter, counts it, and executes it.  Whether the word can
be executed is decided before anything but the counter changes: `fault?` looks for a reserved word
and for an access to a cell that does not exist, and `execute` is only used when it finds none.  A
step that fails has therefore changed nothing else.

There are two ways to stop.  The machine halts when the program counter leaves the program; this
is not an instruction and is not counted.  And it halts in the usual idle loop of two
instructions, which loads its own address and jumps back to it: the jump is executed and counted,
and leaves the machine halted.

A run repeats steps until the machine halts or fails.  It may be given a limit on the instruction
counter, which is compared with the counter before each step; a limit of zero or less is no limit.

A run without a limit need not end, so `run` takes fuel, one unit for each test of the halted
flag, and returns `none` when the fuel is used up.  Fuel is not a limit of the machine: when `run`
returns a result, more fuel gives the same result.
-/

namespace HackMachine
namespace Machine

/-- What keeps the machine from executing a word with the given fields. -/
def fault? (m : Machine) (word : Word) : Format → Option MachineFault
  | .address _ => none
  | .reserved => some (.malformed word m.pc)
  | .compute memory _ dest _ =>
    if isMapped m.a then none
    else if memory then some (.unmappedRead m.a m.pc)
    else if dest.m then some (.unmappedWrite m.a m.pc)
    else none

/-- Whether an instruction with this jump, reached at the program counter, closes the idle loop: it
always jumps, and the word right before it loads the address it jumps to. -/
def isIdle (m : Machine) (jump : Jump) : Bool :=
  jump == .always && m.a.toNat + 1 == m.pc.toNat && m.program[m.a.toNat]? == some m.a

/-- Execute an instruction.  A jump and a store to memory both use the address that was in `A`
before the instruction. -/
def execute (m : Machine) : Format → Machine
  | .address value => { m with a := Format.addressWord value, pc := m.pc + 1 }
  | .reserved => m
  | .compute memory control dest jump =>
    let target := m.a
    let out := control.apply m.d (if memory then m.cell target else target)
    let idle := m.isIdle jump
    let m := if dest.m then m.store target out else m
    { m with
      a := if dest.a then out else m.a
      d := if dest.d then out else m.d
      pc := if jump.holds out then target else m.pc + 1
      halted := m.halted || idle }

/-- Count one instruction. -/
def count (m : Machine) : Machine := { m with steps := m.steps + 1 }

/-- One step: the machine after it, and the fault if it failed. -/
def step (m : Machine) : Machine × Option MachineFault :=
  if m.halted then (m, none)
  else
    match m.program[m.pc.toNat]? with
    | none => ({ m with halted := true }, none)
    | some word =>
      let format := Format.ofWord word
      match m.fault? word format with
      | some fault => (m.count, some fault)
      | none => (m.count.execute format, none)

/-- Several steps, up to the first that fails. -/
def stepMany : Nat → Machine → Machine × Option MachineFault
  | 0, m => (m, none)
  | n + 1, m =>
    match m.step with
    | (m, some fault) => (m, some fault)
    | (m, none) => stepMany n m

/-! ## Runs -/

/-- Whether the instruction counter has reached the limit. -/
def limitReached (m : Machine) (limit : Int64) : Bool := 0 < limit && limit ≤ m.steps

/-- Run until the machine halts, fails or reaches the limit: the machine at that point and the
fault, if any.  The result is `none` if the fuel does not last. -/
def run (limit : Int64) : (fuel : Nat) → Machine → Option (Machine × Option MachineFault)
  | 0, _ => none
  | fuel + 1, m =>
    if m.halted then some (m, none)
    else if m.limitReached limit then some (m, some (.stepLimit limit))
    else
      match m.step with
      | (m, some fault) => some (m, some fault)
      | (m, none) => run limit fuel m

end Machine
end HackMachine
