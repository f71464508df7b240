import HackMachine.Text.Numeral

/-!
# Symbols

A symbol binds a name to an address.  Its kind records how the name came to be bound: it is known
from the start, it labels an instruction, or it was used as the name of a memory cell.

Kinds also travel as numbers.  The three above are 0, 1 and 2; a table accepts any other number as a
kind of its own, which `SymbolKind.other` keeps.

## Names

A name is made of ASCII letters, digits and the four signs `_`, `.`, `$` and `:`.  It does not
start with a digit, so a name is never a numeral.

Twenty-three names are bound before a program is read: seven memory locations with a fixed role,
and the sixteen registers `R0` to `R15`, which are the first memory cells.

`registerNumber?` recognises a register by its spelling alone.  It takes the part behind the `R`
as a signed numeral without a superfluous leading zero, so it knows every register under its table
name, and in addition spellings such as `R+5` that no statement can contain.
-/

namespace HackMachine

/-- How a name came to be bound. -/
inductive SymbolKind where
  | predefined
  | label
  | memory
  /-- A kind known only by its number. -/
  | other (code : Int)
  deriving DecidableEq

namespace SymbolKind

/-- The kind with a given number. -/
def ofCode (code : Int) : SymbolKind :=
  if code = 0 then .predefined
  else if code = 1 then .label
  else if code = 2 then .memory
  else .other code

/-- The number of a kind. -/
def code : SymbolKind → Int
  | .predefined => 0
  | .label => 1
  | .memory => 2
  | .other code => code

@[simp] theorem code_ofCode (n : Int) : (ofCode n).code = n := by
  unfold ofCode
  split
  · next h => exact h.symm
  split
  · next h => exact h.symm
  split
  · next h => exact h.symm
  · rfl

/-- The name of a kind. -/
def text : SymbolKind → Text
  | .predefined => Text.ascii "predefined"
  | .label => Text.ascii "label"
  | .memory => Text.ascii "variable"
  | .other code => Text.ascii "SymbolKind(" ++ Text.signedDecimal code ++ Text.ascii ")"

end SymbolKind

/-- A name bound to an address. -/
structure Symbol where
  name : Text
  address : Int
  kind : SymbolKind
  deriving DecidableEq

namespace Symbol

/-- The order of symbols in a listing: by address, then by name. -/
def listedBefore (s t : Symbol) : Bool :=
  s.address < t.address || (s.address == t.address && s.name ≤ t.name)

end Symbol

/-! ## Names -/

/-- Whether a byte may stand in a name. -/
def isNameByte (b : UInt8) : Bool :=
  Text.isLetter b || Text.isDigit b || (Text.ascii "_.$:").contains b

/-- Whether a text is a name. -/
def isName : Text → Bool
  | [] => false
  | b :: rest => !Text.isDigit b && (b :: rest).all isNameByte

/-! ## Predefined names -/

/-- The first address of the memory-mapped screen. -/
def screenBase : Nat := 16384

/-- The address of the keyboard register, the last memory cell. -/
def keyboardAddress : Nat := 24576

/-- The names of the sixteen registers. -/
def registerNames : List (Text × Nat) :=
  (List.range 16).map fun n => (Text.byte 'R' :: Text.decimal n, n)

/-- The predefined names with their addresses. -/
def predefinedNames : List (Text × Nat) :=
  [(Text.ascii "SP", 0), (Text.ascii "LCL", 1), (Text.ascii "ARG", 2), (Text.ascii "THIS", 3),
   (Text.ascii "THAT", 4), (Text.ascii "SCREEN", screenBase),
   (Text.ascii "KBD", keyboardAddress)] ++ registerNames

/-- The address of a predefined name. -/
def predefinedAddress? (name : Text) : Option Nat := predefinedNames.lookup name

/-- The number of the register that a name denotes by its spelling. -/
def registerNumber? : Text → Option Nat
  | [] => none
  | letter :: digits =>
    if letter ≠ Text.byte 'R' || digits.length < 1 || 2 < digits.length then none
    else if 1 < digits.length && digits.head? == some (Text.byte '0') then none
    else
      match Text.integer? digits with
      | some n => if 0 ≤ n ∧ n ≤ 15 then some n.toNat else none
      | none => none

end HackMachine
