import HackMachine.Instruction.Malformation
import HackMachine.Symbol.Basic
import HackMachine.Text.Glyph
import HackMachine.Text.Numeral

/-!
# Statements

A cleaned line of assembly language is one statement.  Its first byte decides which kind it is: a
parenthesis opens a label, an at sign an address, and anything else is a compute statement of the
form

    dest = comp ; jump

in which blanks are ignored and `dest =` and `; jump` may be left out.

Reading a statement settles its shape only.  The three fields of a compute statement are kept as
they are written, and the operand of an address statement is kept as a number or a name: whether
they mean anything is found out when the statement is encoded.
-/

namespace HackMachine

/-- The operand of an address statement. -/
inductive AddressOperand where
  | literal (value : Nat)
  | symbol (name : Text)
  deriving DecidableEq

/-- A statement that becomes an instruction. -/
inductive Operation where
  | address (operand : AddressOperand)
  | compute (dest comp jump : Text)
  deriving DecidableEq

/-- A statement of the assembly language. -/
inductive Statement where
  | label (name : Text)
  | operation (op : Operation)
  deriving DecidableEq

namespace Statement

/-- Why a text is not a statement. -/
inductive Fault where
  | malformed (why : Malformation)
  /-- A literal too large for 64 bits, with its digits as written. -/
  | hugeLiteral (digits : Text)
  deriving DecidableEq

/-- The name of a label, from the text behind its opening parenthesis. -/
def readLabel (t : Text) : Except Fault Text :=
  if t.length < 2 ∨ t.getLast? ≠ some (Text.byte ')') then .error (.malformed .labelShape)
  else if isName t.dropLast then .ok t.dropLast
  else .error (.malformed (.labelName t.dropLast))

/-- The operand of an address statement, from the text behind the at sign. -/
def readOperand (t : Text) : Except Fault AddressOperand :=
  match t with
  | [] => .error (.malformed .missingOperand)
  | b :: _ =>
    if Text.isDigit b then
      match Text.natural? t with
      | none => .error (.malformed (.constant t))
      | some value =>
        if value < Text.int64Bound then .ok (.literal value) else .error (.hugeLiteral t)
    else if isName t then .ok (.symbol t)
    else .error (.malformed (.symbol t))

/-- The destination of a compute statement without blanks, and what stands behind its equals sign.
-/
def readDestination (t : Text) : Except Malformation (Text × Text) :=
  match t.cut (Text.byte '=') with
  | (_, none) => .ok ([], t)
  | ([], some _) => .error .emptyDestination
  | (dest, some rest) => .ok (dest, rest)

/-- The computation and the jump behind the destination. -/
def readComputation (t : Text) : Except Malformation (Text × Text) :=
  match t.cut (Text.byte ';') with
  | ([], _) => .error .missingComputation
  | (_, some []) => .error .emptyJump
  | (comp, jump) => .ok (comp, jump.getD [])

/-- The fields of a compute statement. -/
def readCompute (t : Text) : Except Malformation Operation := do
  let (dest, rest) ← readDestination t.withoutBlanks
  let (comp, jump) ← readComputation rest
  return .compute dest comp jump

/-- Read a cleaned line as a statement. -/
def parse (t : Text) : Except Fault Statement :=
  match t with
  | [] => .error (.malformed .emptyStatement)
  | b :: rest =>
    if b = Text.byte '(' then (readLabel rest).map .label
    else if b = Text.byte '@' then
      (readOperand rest).map fun operand => .operation (.address operand)
    else ((readCompute t).map .operation).mapError .malformed

end Statement
end HackMachine
