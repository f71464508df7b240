import HackMachine.Assembly.Resolver
import HackMachine.Instruction.Basic

/-!
# The two passes

The first pass reads the lines one after the other.  It counts the statements that become
instructions, and binds each label to the number of instructions before it.  A label may be used
before its line, so no operand is looked at yet.

The second pass reads the same lines again.  With all labels bound, each statement can be turned into
a word by itself, in order.  Only names that have no binding yet couple the statements: they become
memory cells, numbered by first use.

Each pass stops at the first line that fails.  What it has done up to that line is kept, since a
later look at the table shows it.  A name that was bound for the very statement that fails stays
bound, as it does when its address turns out not to fit.
-/

namespace HackMachine

/-! ## The first pass: labels -/

/-- What is known of a program after some of its lines: the names that are bound, and the number of
instructions. -/
structure Layout where
  table : SymbolTable
  count : Nat

namespace Layout

/-- Before the first line only the predefined names are bound. -/
def start : Layout := ⟨SymbolTable.initial, 0⟩

/-- Take one more line.  A line that fails leaves the layout as it was. -/
def addLine (layout : Layout) (line : SourceLine) : Layout × Option LineFault :=
  match Statement.parse line.text with
  | .error fault => (layout, some ⟨line, .ofStatement fault⟩)
  | .ok (.operation _) => ({ layout with count := layout.count + 1 }, none)
  | .ok (.label name) =>
    match layout.table.define name ⟨layout.count, .label⟩ with
    | .error earlier => (layout, some ⟨line, .duplicateLabel name earlier⟩)
    | .ok table => ({ layout with table := table }, none)

/-- Take lines up to the first that fails. -/
def addLines : Layout → List SourceLine → Layout × Option LineFault
  | layout, [] => (layout, none)
  | layout, line :: lines =>
    match layout.addLine line with
    | (layout, some fault) => (layout, some fault)
    | (layout, none) => addLines layout lines

end Layout

/-! ## The second pass: words -/

/-- A statement that becomes an instruction, with its line. -/
structure Located where
  line : SourceLine
  op : Operation
  deriving DecidableEq

/-- A word and the number of the source line it comes from. -/
structure Emitted where
  word : Word
  line : Int
  deriving DecidableEq

/-- What the second pass has produced so far. -/
structure Emission where
  table : SymbolTable
  resolver : Resolver
  code : Array Emitted

namespace Emission

/-- The second pass starts from the table and the length of a complete layout. -/
def start (layout : Layout) : Emission :=
  { table := layout.table
    resolver := { programLength := layout.count }
    code := #[] }

/-- The word that loads an address. -/
def addressWord (address : Int) : Except Fault Word :=
  match Instruction.ofAddress? address with
  | some instruction => .ok instruction.encode
  | none => .error (.addressOutOfRange address)

/-- The word that the fields of a compute statement spell. -/
def computeWord (dest comp jump : Text) : Except Fault Word :=
  match Instruction.ofFields dest comp jump with
  | .ok instruction => .ok instruction.encode
  | .error why => .error (.malformed why)

/-- The word of a statement, and the emission with whatever name was bound on the way. -/
def encode (e : Emission) : Operation → Emission × Except Fault Word
  | .address (.literal value) => (e, addressWord value)
  | .address (.symbol name) =>
    match e.resolver.resolve e.table name with
    | .error fault => (e, .error fault)
    | .ok resolved =>
      ({ e with table := resolved.table, resolver := resolved.resolver },
        addressWord resolved.address)
  | .compute dest comp jump => (e, computeWord dest comp jump)

/-- Take one more statement. -/
def add (e : Emission) (located : Located) : Emission × Option LineFault :=
  match e.encode located.op with
  | (e, .error fault) => (e, some ⟨located.line, fault⟩)
  | (e, .ok word) => ({ e with code := e.code.push ⟨word, located.line.number⟩ }, none)

/-- Take one more line.  The line is read once more, and a label is passed over. -/
def addLine (e : Emission) (line : SourceLine) : Emission × Option LineFault :=
  match Statement.parse line.text with
  | .error fault => (e, some ⟨line, .ofStatement fault⟩)
  | .ok (.label _) => (e, none)
  | .ok (.operation op) => e.add ⟨line, op⟩

/-- Take lines up to the first that fails. -/
def addLines : Emission → List SourceLine → Emission × Option LineFault
  | e, [] => (e, none)
  | e, line :: lines =>
    match e.addLine line with
    | (e, some fault) => (e, some fault)
    | (e, none) => addLines e lines

end Emission
end HackMachine
