import HackMachine.Source
import HackMachine.Statement
import HackMachine.Symbol.Table

/-!
# Why a program does not assemble

Assembly fails at one line, and for one reason.  The reasons fall into four classes: a statement
is malformed, an address does not fit the fifteen bits of an instruction, a name is not bound to
anything usable, or a label is already bound.
-/

namespace HackMachine

/-- The four classes of reasons. -/
inductive FaultClass where
  | malformedInstruction
  | addressOutOfRange
  | undefinedSymbol
  | duplicateLabel
  deriving DecidableEq

/-- Why a line does not assemble. -/
inductive Fault where
  | malformed (why : Malformation)
  /-- A literal that does not even fit 64 bits, with its digits as written. -/
  | hugeLiteral (digits : Text)
  /-- An address that does not fit an instruction. -/
  | addressOutOfRange (address : Int)
  /-- A name that is not bound. -/
  | undefinedSymbol (name : Text)
  /-- A label that no instruction follows. -/
  | deadLabel (name : Text)
  /-- A label whose name is bound already. -/
  | duplicateLabel (name : Text) (earlier : Binding)
  deriving DecidableEq

namespace Fault

/-- The class of a reason. -/
def toClass : Fault → FaultClass
  | .malformed _ => .malformedInstruction
  | .hugeLiteral _ => .addressOutOfRange
  | .addressOutOfRange _ => .addressOutOfRange
  | .undefinedSymbol _ => .undefinedSymbol
  | .deadLabel _ => .undefinedSymbol
  | .duplicateLabel _ _ => .duplicateLabel

/-- What is reported about a number that does not fit an instruction. -/
def outOfRangeMessage (number : Text) : Text :=
  Text.ascii "address out of range: " ++ number ++ Text.ascii " does not fit in 15 bits"

/-- What is reported about a name that is not bound to anything usable. -/
def undefinedMessage (name : Text) : Text :=
  Text.ascii "undefined symbol '" ++ name ++ Text.ascii "'"

/-- The reason in words. -/
def message : Fault → Text
  | .malformed why => why.message
  | .hugeLiteral digits => outOfRangeMessage digits
  | .addressOutOfRange address => outOfRangeMessage (Text.signedDecimal address)
  | .undefinedSymbol name => undefinedMessage name
  | .deadLabel name => undefinedMessage name ++ Text.ascii ": label has no following instruction"
  | .duplicateLabel name earlier =>
    Text.ascii "duplicate label '" ++ name ++ Text.ascii "' already defined as " ++
      earlier.kind.text ++ Text.ascii " " ++ Text.signedDecimal earlier.address

/-- A statement that cannot be read is a reason not to assemble. -/
def ofStatement : Statement.Fault → Fault
  | .malformed why => .malformed why
  | .hugeLiteral digits => .hugeLiteral digits

end Fault

/-- A reason and the line it was found at. -/
structure LineFault where
  line : SourceLine
  fault : Fault
  deriving DecidableEq

/-- The reason in words, followed by the line. -/
def LineFault.message (f : LineFault) : Text :=
  f.fault.message ++ Text.ascii " on line " ++ Text.signedDecimal f.line.number ++
    Text.ascii ": " ++ f.line.text

end HackMachine
