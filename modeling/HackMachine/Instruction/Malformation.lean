import HackMachine.Word

/-!
# Malformed instructions

One type lists every way in which a statement, a mnemonic or a word fails to be an instruction,
and one function words them all.  A reason carries exactly the text or word that its message
shows.
-/

namespace HackMachine

/-- Why something is not an instruction. -/
inductive Malformation where
  /-- A statement without any text. -/
  | emptyStatement
  /-- A label statement that is not a name between parentheses. -/
  | labelShape
  /-- A label whose name is not a symbol. -/
  | labelName (name : Text)
  /-- An address statement without an operand. -/
  | missingOperand
  /-- An operand that starts with a digit but is not a numeral. -/
  | constant (operand : Text)
  /-- An operand that is neither a numeral nor a symbol. -/
  | symbol (operand : Text)
  /-- Nothing stands before the equals sign. -/
  | emptyDestination
  /-- Nothing stands where the computation belongs. -/
  | missingComputation
  /-- Nothing stands behind the semicolon. -/
  | emptyJump
  /-- A text that spells no computation. -/
  | computation (text : Text)
  /-- A text that spells no destination. -/
  | destination (text : Text)
  /-- A text that names no jump condition. -/
  | jump (text : Text)
  /-- A word that is neither an address nor marked as a compute instruction. -/
  | reservedBits (word : Word)
  /-- A compute word whose control bits have no name. -/
  | unnamedControl (word : Word)
  /-- A compute word that selects the memory cell for a computation without a further operand. -/
  | idleMemoryBit (word : Word)
  deriving DecidableEq

namespace Malformation

/-- The reason in words. -/
def reason : Malformation → Text
  | .emptyStatement => Text.ascii "empty statement"
  | .labelShape => Text.ascii "label must be written (NAME)"
  | .labelName name => Text.ascii "invalid label '" ++ name ++ Text.ascii "'"
  | .missingOperand => Text.ascii "@ needs a constant or symbol"
  | .constant operand => Text.ascii "invalid constant '" ++ operand ++ Text.ascii "'"
  | .symbol operand => Text.ascii "invalid symbol '" ++ operand ++ Text.ascii "'"
  | .emptyDestination => Text.ascii "empty destination"
  | .missingComputation => Text.ascii "missing computation"
  | .emptyJump => Text.ascii "empty jump"
  | .computation text => Text.ascii "unknown computation " ++ text.quoted
  | .destination text => Text.ascii "invalid destination " ++ text.quoted
  | .jump text => Text.ascii "unknown jump " ++ text.quoted
  | .reservedBits word => word.binary ++ Text.ascii " has reserved bits clear"
  | .unnamedControl word => word.binary ++ Text.ascii " has no computation"
  | .idleMemoryBit word =>
    word.binary ++ Text.ascii " sets the memory bit on a register-free computation"

/-- What is reported about a malformed instruction. -/
def message (m : Malformation) : Text := Text.ascii "malformed instruction: " ++ m.reason

end Malformation
end HackMachine
