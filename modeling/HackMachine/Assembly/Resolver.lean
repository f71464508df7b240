import HackMachine.Assembly.Fault

/-!
# Resolving operands

An operand of an address instruction names a register, a label, or a memory cell of the program's
own.  A resolver turns such names into addresses.  A name that is not bound becomes a new memory
cell: the resolver allocates the addresses 16, 17, 18, ... in the order in which names first come
up, and defines each in the table.

A label is of no use as an address if no instruction follows it.  Since labels are numbered by the
instructions before them, these are the labels whose address is not below the length of the program.
-/

namespace HackMachine

/-- The first address that is given to a memory cell of the program. -/
def firstVariable : Nat := 16

/-- What a resolver has to know besides the table. -/
structure Resolver where
  /-- The number of instructions of the program. -/
  programLength : Int
  /-- How many memory cells have been allocated. -/
  allocated : Nat := 0
  deriving DecidableEq

namespace Resolver

/-- The address of the next memory cell. -/
def next (r : Resolver) : Nat := firstVariable + r.allocated

/-- What is known of a name after it has been resolved. -/
structure Resolved where
  address : Int
  table : SymbolTable
  resolver : Resolver

/-- Give a name the next memory cell. -/
def allocate (r : Resolver) (table : SymbolTable) (name : Text) : Except Fault Resolved :=
  match table.define name ⟨r.next, .memory⟩ with
  | .error earlier => .error (.duplicateLabel name earlier)
  | .ok table => .ok ⟨r.next, table, { r with allocated := r.allocated + 1 }⟩

/-- The address of a name, allocating a memory cell for a name that is not bound.  A label that no
instruction follows has none. -/
def resolve (r : Resolver) (table : SymbolTable) (name : Text) : Except Fault Resolved :=
  match registerNumber? name with
  | some n => .ok ⟨n, table, r⟩
  | none =>
    match table.lookup? name with
    | some binding =>
      if binding.kind = .label ∧ r.programLength ≤ binding.address then .error (.deadLabel name)
      else .ok ⟨binding.address, table, r⟩
    | none => r.allocate table name

end Resolver
end HackMachine
