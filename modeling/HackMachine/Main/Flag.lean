import HackMachine.Text.Basic

/-!
# Flags and operands

The arguments of a command are flags and operands in any order.  A flag has a long name, written
behind two dashes, and perhaps a letter, written behind one.  Its value is the text behind an
equals sign, or else the next argument; behind a letter it may also follow without an equals
sign.  A *switch* has the value `true` unless one is given behind an equals sign, and so several
switches may share one dash.  Two dashes by themselves end the flags.

`readArguments` only takes the arguments apart.  Since a flag may have to wait for the next
argument, it carries the name of the flag that is waiting, and recurses on the arguments one by
one.

## Records

The value of a flag may be a record, a line of fields separated by commas.  A field that starts with
a double quote runs to the next quote that is not doubled, and may contain commas and line ends; a
doubled quote in it stands for one.  A quote anywhere else is an error, and so is a quoted field that
is not closed or has something behind it.

Only the first record of a text is read.  Empty lines before it are skipped, a carriage return in
front of a line feed or at the very end is dropped, and what follows the record is ignored.
-/

namespace HackMachine

/-- A flag that a command accepts. -/
structure Flag where
  name : Text
  letter : Option UInt8 := none
  isSwitch : Bool := false
  deriving DecidableEq

/-- The values given to flags, by name and in order, and the operands. -/
structure Arguments where
  values : List (Text × Text)
  operands : List Text
  deriving DecidableEq

namespace Flag

/-- The byte that marks a flag. -/
def dash : UInt8 := Text.byte '-'

/-- The argument that ends the flags. -/
def terminator : Text := [dash, dash]

/-- The value of a switch that is given none. -/
def switchedOn : Text := Text.ascii "true"

/-- What one argument contributes: values, and the name of a flag whose value is still to come. -/
structure Piece where
  values : List (Text × Text)
  waiting : Option Text

/-- Read what stands behind two dashes. -/
def readLong (flags : List Flag) (t : Text) : Option Piece :=
  let (name, value) := t.cut (Text.byte '=')
  match flags.find? (fun flag => flag.name == name) with
  | none => none
  | some flag =>
    match value with
    | some value => some ⟨[(name, value)], none⟩
    | none =>
      if flag.isSwitch then some ⟨[(name, switchedOn)], none⟩ else some ⟨[], some name⟩

/-- Letters that are passed over together with everything behind them. -/
def passedOver : Text := Text.ascii "test."

/-- Read the letters behind one dash; `values` holds the values so far. -/
def readLetters (flags : List Flag) : (values : List (Text × Text)) → Text → Option Piece
  | values, [] => some ⟨values, none⟩
  | values, letter :: rest =>
    if passedOver.isPrefixOf (letter :: rest) then some ⟨values, none⟩
    else
      match flags.find? (fun flag => flag.letter == some letter) with
      | none => none
      | some flag =>
        if rest.head? == some (Text.byte '=') && 1 < rest.length then
          some ⟨values ++ [(flag.name, rest.drop 1)], none⟩
        else if flag.isSwitch then readLetters flags (values ++ [(flag.name, switchedOn)]) rest
        else if rest.isEmpty then some ⟨values, some flag.name⟩
        else some ⟨values ++ [(flag.name, rest)], none⟩

/-- Read one argument.  An argument that is not a flag gives `none` inside, a bad flag outside. -/
def readArgument (flags : List Flag) (t : Text) : Option (Option Piece) :=
  match t with
  | first :: second :: rest =>
    if first ≠ dash then some none
    else if second = dash then (readLong flags rest).map some
    else (readLetters flags [] (second :: rest)).map some
  | _ => some none

end Flag

/-- Take arguments apart, given the flags that are accepted; `none` if one of them is bad.  The
first argument is the value of the waiting flag, if there is one. -/
def readArguments (flags : List Flag) : (waiting : Option Text) → Arguments → List Text →
    Option Arguments
  | none, read, [] => some read
  | some _, _, [] => none
  | some name, read, value :: rest =>
    readArguments flags none { read with values := read.values ++ [(name, value)] } rest
  | none, read, t :: rest =>
    if t = Flag.terminator then some { read with operands := read.operands ++ rest }
    else
      match Flag.readArgument flags t with
      | none => none
      | some none => readArguments flags none { read with operands := read.operands ++ [t] } rest
      | some (some piece) =>
        readArguments flags piece.waiting { read with values := read.values ++ piece.values } rest

/-! ## Records -/

namespace Text

/-- Where the reading of a record stands. -/
inductive RecordState where
  /-- At the start of a field. -/
  | start
  /-- In a field without quotes. -/
  | plain
  /-- Between the quotes of a field. -/
  | quoted
  /-- Behind a quote that closes a field, unless another one follows. -/
  | closing
  deriving DecidableEq

/-- Drop each carriage return in front of a line feed, and one at the end; `kept` holds what stands
before, the last byte first. -/
def plainLineEnds : (kept : Text) → Text → Text
  | kept, [] => kept.reverse
  | kept, b :: rest =>
    if b = byte '\r' ∧ (rest = [] ∨ rest.head? = some newline) then plainLineEnds kept rest
    else plainLineEnds (b :: kept) rest

/-- Read the fields of a record.  `field` holds the current field and `fields` the ones before it,
both the last first. -/
def recordFrom : (state : RecordState) → (field : Text) → (fields : List Text) → Text →
    Option (List Text)
  | .quoted, _, _, [] => none
  | _, field, fields, [] => some (field.reverse :: fields).reverse
  | .quoted, field, fields, b :: rest =>
    if b = byte '"' then recordFrom .closing field fields rest
    else recordFrom .quoted (b :: field) fields rest
  | state, field, fields, b :: rest =>
    if b = newline then some (field.reverse :: fields).reverse
    else if b = byte ',' then recordFrom .start [] (field.reverse :: fields) rest
    else
      match state with
      | .start =>
        if b = byte '"' then recordFrom .quoted [] fields rest
        else recordFrom .plain [b] fields rest
      | .closing =>
        if b = byte '"' then recordFrom .quoted (b :: field) fields rest else none
      | _ => if b = byte '"' then none else recordFrom .plain (b :: field) fields rest

/-- The fields of the first record of a text, if there is one and it is well formed. -/
def record? (t : Text) : Option (List Text) :=
  match (plainLineEnds [] t).dropWhile (· == newline) with
  | [] => none
  | b :: rest => recordFrom .start [] [] (b :: rest)

end Text
end HackMachine
