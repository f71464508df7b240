import HackMachine.Command.Session
import HackMachine.Main.Flag
import HackMachine.Text.Numeral
import HackMachine.Text.Quoted

/-!
# The arguments of the program

`Command.parse` reads the arguments of the program; if they do not form a command, it says whether
that is an error in their use or a request for help.  `Symbol.display` is the form in which the
program prints a symbol.  Both are conventions of this command line, and the commands themselves do
not depend on them.  The text of the help, and flags that set up a log, are not part of it.

## The command word

The command word may stand behind flags, before it is known which command they belong to.  Until
then a dash with one letter, or two dashes and a name, is taken to have its value in the next
argument unless it contains an equals sign; `splitCommand` passes over both.
-/

namespace HackMachine

/-- A symbol as it is printed. -/
def Symbol.display (s : Symbol) : Text :=
  Text.ascii "asm.Symbol\x7b\n  Name:    " ++ s.name.quoted ++
    Text.ascii ",\n  Address: " ++ Text.signedDecimal s.address ++
    Text.ascii ",\n  Kind:    " ++ Text.signedDecimal s.kind.code ++
    Text.ascii ",\n\x7d\n"

namespace Command

/-! ## The command word -/

/-- Whether an argument is taken to have its value in the next one. -/
def takesNext (t : Text) : Bool :=
  !t.contains (Text.byte '=') &&
    ([Flag.dash, Flag.dash].isPrefixOf t || (t.head? == some Flag.dash && t.length == 2))

/-- The first argument that is neither a flag nor the value of one, and the other
arguments.  `skip` says whether the first argument is a value, and `passed` holds the arguments
before, the last first. -/
def splitCommandFrom : (skip : Bool) → (passed : List Text) → List Text →
    Option (Text × List Text)
  | _, _, [] => none
  | true, passed, t :: rest => splitCommandFrom false (t :: passed) rest
  | false, passed, t :: rest =>
    if t = Flag.terminator then none
    else if takesNext t then
      -- A value that is the last argument leaves no room for a command.
      if rest.length ≤ 1 then none else splitCommandFrom true (t :: passed) rest
    else if t.isEmpty || t.head? == some Flag.dash then splitCommandFrom false (t :: passed) rest
    else some (t, passed.reverse ++ rest)

/-- The command word and the other arguments. -/
def splitCommand (args : List Text) : Option (Text × List Text) := splitCommandFrom false [] args

/-! ## Flag values -/

/-- The texts that mean yes. -/
def yes : List Text := ["1", "t", "T", "true", "TRUE", "True"].map Text.ascii

/-- The texts that mean no. -/
def no : List Text := ["0", "f", "F", "false", "FALSE", "False"].map Text.ascii

/-- The value of a switch. -/
def switchValue? (t : Text) : Option Bool :=
  if yes.contains t then some true else if no.contains t then some false else none

/-- One setting `name=value` of a list of them. -/
def readSetting (t : Text) : Option (Text × Int) :=
  match t.cut (Text.byte '=') with
  | (name, some value) => (Text.integer? value).map (name, ·)
  | (_, none) => none

/-- Give a name a value, in place of the one it has or behind the others. -/
def putSetting (settings : List (Text × Int)) (setting : Text × Int) : List (Text × Int) :=
  if settings.any (·.1 == setting.1) then
    settings.map fun other => if other.1 == setting.1 then setting else other
  else settings ++ [setting]

/-- The settings in a list separated by commas, added to earlier ones. -/
def addSettings? (settings : List (Text × Int)) (t : Text) : Option (List (Text × Int)) :=
  ((t.splitOn (Text.byte ',')).mapM readSetting).map fun more => more.foldl putSetting settings

/-- The names in a record; an empty text has none. -/
def readNames (t : Text) : Option (List Text) := if t.isEmpty then some [] else t.record?

/-! ## Flags of each command -/

/-- The name of the flag that asks for help. -/
def helpName : Text := Text.ascii "help"

/-- The flag that asks for help. -/
def helpFlag : Flag := { name := helpName, letter := some (Text.byte 'h'), isSwitch := true }

/-- The flag that names the file to write. -/
def outFlag : Flag := { name := Text.ascii "out", letter := some (Text.byte 'o') }

/-- The flag that asks for the symbols of a program. -/
def dumpSymbolsFlag : Flag := { name := Text.ascii "dump-symbols", isSwitch := true }

/-- The flag that asks for the source lines of a program. -/
def sourceMapFlag : Flag := { name := Text.ascii "source-map", isSwitch := true }

/-- The flag that limits a run. -/
def maxStepsFlag : Flag := { name := Text.ascii "max-steps" }

/-- The flag that sets memory cells. -/
def setFlag : Flag := { name := Text.ascii "set" }

/-- The flag that names the memory cells to print. -/
def dumpFlag : Flag := { name := Text.ascii "dump" }

/-- Take a flag of `assemble`. -/
def assembleOption (options : AssembleOptions) (value : Text × Text) : Option AssembleOptions :=
  if value.1 = outFlag.name then some { options with out := value.2 }
  else if value.1 = dumpSymbolsFlag.name then
    (switchValue? value.2).map fun on => { options with dumpSymbols := on }
  else if value.1 = sourceMapFlag.name then
    (switchValue? value.2).map fun on => { options with sourceMap := on }
  else none

/-- Take a flag of `disasm`. -/
def disassembleOption (_ : Text) (value : Text × Text) : Option Text :=
  if value.1 = outFlag.name then some value.2 else none

/-- Take a flag of `run`.  The first list of cells to print replaces the default, later ones add
to it; `dumped` says whether there has been one. -/
def runOption (state : RunOptions × Bool) (value : Text × Text) : Option (RunOptions × Bool) :=
  let (options, dumped) := state
  if value.1 = maxStepsFlag.name then
    (Text.literal? value.2).map fun n => ({ options with maxSteps := Int64.ofInt n }, dumped)
  else if value.1 = setFlag.name then
    (addSettings? options.set value.2).map fun set => ({ options with set := set }, dumped)
  else if value.1 = dumpFlag.name then
    (readNames value.2).map fun names =>
      ({ options with dump := if dumped then options.dump ++ names else names }, true)
  else none

/-- Whether values of the help flag ask for help.  The last one counts, and all must be legal. -/
def asksHelp? (values : List (Text × Text)) : Option Bool :=
  (values.mapM fun value => switchValue? value.2).map fun help => help.getLast?.getD false

/-- Read the flags and the one operand of a command.  `start` holds the options when no flag is
given, and `take` takes a flag. -/
def parseWith {α : Type} (flags : List Flag) (start : α) (take : α → Text × Text → Option α)
    (args : List Text) : Except Refusal (Text × α) :=
  match readArguments (helpFlag :: flags) none ⟨[], []⟩ args with
  | none => .error .usage
  | some read =>
    let (help, values) := read.values.partition (·.1 == helpName)
    match asksHelp? help, values.foldlM take start with
    | some help, some options =>
      if help then .error (.help [])
      else
        match read.operands with
        | [path] => .ok (path, options)
        | _ => .error .usage
    | _, _ => .error .usage

/-- Read a command from its arguments. -/
def parse (args : List Text) : Except Refusal Command :=
  match splitCommand args with
  | none =>
    -- Without a command word, flags that can be read only lead to help.
    match (readArguments [helpFlag] none ⟨[], []⟩ args).bind (asksHelp? ·.values) with
    | some _ => .error (.help [])
    | none => .error .usage
  | some (word, rest) =>
    if word = Text.ascii "assemble" ∨ word = Text.ascii "asm" then
      (parseWith [outFlag, dumpSymbolsFlag, sourceMapFlag] {} assembleOption rest).map
        fun read => .assemble read.1 read.2
    else if word = Text.ascii "disasm" then
      (parseWith [outFlag] standardOutput disassembleOption rest).map
        fun read => .disassemble read.1 read.2
    else if word = Text.ascii "run" then
      (parseWith [maxStepsFlag, setFlag, dumpFlag] ({}, false) runOption rest).map
        fun read => .run read.1 read.2.1
    else .error .usage

end Command
end HackMachine
