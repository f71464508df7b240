import HackMachine.Command.Input
import HackMachine.Machine.Step

/-!
# What the commands do

There are three commands: `assemble`, `disasm` and `run`.  Each takes one file and some options.
Each command is a session: it reads its file, and everything else follows from the content.  A file
is written only after all that can fail has been done, so a command that fails has written nothing.

* `assemble` writes the listing of the program.  On request it first prints the symbols and the
  source lines of the words, as errors so that they do not mix with a listing on the standard
  output.
* `disasm` writes one line of assembly language for each word of a listing.
* `run` assembles a source file, or reads a listing, runs it, and prints the machine and some cells.

A listing or a disassembly that cannot be printed is a failure.  All other texts may be lost: whether
they have been printed is not asked.

How arguments spell a command is left to whoever reads them, and so is the form in which a symbol is
printed (`Surroundings`).
-/

namespace HackMachine

/-! ## Commands -/

/-- How to assemble a file. -/
structure AssembleOptions where
  /-- The file to write; empty for the one next to the source. -/
  out : Text := []
  dumpSymbols : Bool := false
  sourceMap : Bool := false
  deriving DecidableEq

/-- How to run a program. -/
structure RunOptions where
  /-- The step limit; none if it is not positive. -/
  maxSteps : Int64 := 1000000
  /-- Values of memory cells at the start, by the names of the cells. -/
  set : List (Text × Int) := []
  /-- The names of the cells to print at the end. -/
  dump : List Text := [Text.ascii "R0", Text.ascii "R1", Text.ascii "R2"]
  deriving DecidableEq

/-- A command with its file. -/
inductive Command where
  | assemble (path : Text) (options : AssembleOptions)
  | disassemble (path : Text) (out : Text)
  | run (path : Text) (options : RunOptions)
  deriving DecidableEq

/-- Why arguments are not a command. -/
inductive Refusal where
  /-- They are used wrongly. -/
  | usage
  /-- They ask for help instead, which is this text. -/
  | help (text : Text)
  deriving DecidableEq

/-- What a command takes from its surroundings. -/
structure Surroundings where
  /-- The working directory, if it is known. -/
  cwd : Except Path.DirectoryFault Text
  /-- A bound on the instructions of a run. -/
  fuel : Nat
  /-- The form in which a symbol is printed. -/
  display : Symbol → Text

/-- The file name that stands for the standard output. -/
def standardOutput : Text := Text.ascii "-"

namespace Command

/-! ## Endings -/

/-- What is printed when a command fails; `heading` introduces the failure. -/
def failureLine (heading : Text) (why : Failure) : Text := heading ++ why.message ++ [Text.newline]

/-- The end of a command that fails. -/
def fail (heading : Text) (why : Failure) : Session :=
  .print .errors (failureLine heading why) fun _ => .finish false

/-- The end of a command that may have failed. -/
def conclude (heading : Text) : Option Failure → Session
  | none => .finish true
  | some why => fail heading why

/-! ## Assembling -/

/-- What introduces the failure of an assembly. -/
def assembleHeading : Text := Text.ascii "assembly failed: "

/-- The symbols that the program itself introduces, one text for each. -/
def symbolTexts (display : Symbol → Text) (p : Program) : List Text :=
  (p.symbols.filter (·.kind ≠ .predefined)).map display

/-- The address of each word and the number of its source line. -/
def sourceMapLines (p : Program) : List Text :=
  p.sourceMap.map fun entry =>
    Text.decimal entry.1 ++ Text.ascii "\t" ++ Text.signedDecimal entry.2 ++ [Text.newline]

/-- The file that an assembly writes. -/
def assembleOutput (cwd : Except Path.DirectoryFault Text) (path : Text) (options : AssembleOptions) :
    Except Failure Text :=
  if options.out.isEmpty then (Path.sibling cwd path listingExtension).mapError .directory
  else .ok options.out

/-- Write the listing of a program. -/
def writeListing (output : Text) (words : Array Word) : Session :=
  if output = standardOutput then
    .print .output (listing words) fun fault => conclude assembleHeading (fault.map .print)
  else
    .write output (listing words) fun
      | some fault => fail assembleHeading (.output output fault)
      | none =>
        .print .output (Text.ascii "assembled " ++ Text.decimal words.size ++
          Text.ascii " words -> " ++ output ++ [Text.newline]) fun _ => .finish true

/-- Write an assembled program, and what has been asked for besides. -/
def writeProgram (s : Surroundings) (path : Text) (options : AssembleOptions) (program : Program) :
    Session :=
  .printAll .errors (if options.dumpSymbols then symbolTexts s.display program else []) <|
    .printAll .errors (if options.sourceMap then sourceMapLines program else []) <|
      match assembleOutput s.cwd path options with
      | .error why => fail assembleHeading why
      | .ok output => writeListing output program.words

/-- Assemble a file. -/
def assembleSession (s : Surroundings) (path : Text) (options : AssembleOptions) : Session :=
  .log (.opening path) <| .read path fun content =>
    match inputText path content with
    | .error why => fail assembleHeading why
    | .ok text =>
      .log (.assembling text) <|
        match inputProgram text with
        | .error why => fail assembleHeading why
        | .ok program => writeProgram s path options program

/-! ## Disassembling -/

/-- What introduces the failure of a disassembly. -/
def disassembleHeading : Text := Text.ascii "disassembly failed: "

/-- Instructions as lines of assembly language. -/
def assemblyText (instructions : List Instruction) : Text :=
  instructions.flatMap fun i => i.text ++ [Text.newline]

/-- Write disassembled instructions. -/
def writeInstructions (out : Text) (instructions : List Instruction) : Session :=
  if out = standardOutput then
    .print .output (assemblyText instructions) fun fault =>
      conclude disassembleHeading (fault.map .print)
  else
    .write out (assemblyText instructions) fun fault =>
      conclude disassembleHeading (fault.map .file)

/-- Disassemble a file. -/
def disassembleSession (path out : Text) : Session :=
  .read path fun content =>
    match inputText path content >>= listingInstructions with
    | .error why => fail disassembleHeading why
    | .ok instructions =>
      .log (.disassembled instructions.length path) (writeInstructions out instructions)

/-! ## Running -/

/-- What introduces the failure of a run. -/
def runHeading (path : Text) : Text :=
  Text.ascii "run failed for " ++ path.quoted ++ Text.ascii ": "

/-- The words to run: a source file is assembled, any other file is read as a listing. -/
def loadWords (path : Text) (text : Text) : Except Failure (Array Word) :=
  if Path.extension path = sourceExtension then (inputProgram text).map (·.words)
  else (listingWords text).map (·.toArray)

/-- The line that tells where a run has ended. -/
def runLine (path : Text) (m : Machine) : Text :=
  Text.ascii "run complete (" ++ path ++ Text.ascii "): steps=" ++
    Text.signedDecimal m.steps.toInt ++ Text.ascii " PC=" ++ Text.decimal m.pc.toNat ++
    Text.ascii " A=" ++ Text.decimal m.a.toNat ++ Text.ascii " D=" ++
    Text.signedDecimal m.d.toSigned ++ [Text.newline]

/-- Print a machine that has halted. -/
def reportRun (path : Text) (options : RunOptions) (m : Machine) : Session :=
  .printAll .output (runLine path m :: (m.dumpCells options.dump).1) <|
    conclude (runHeading path) (m.dumpCells options.dump).2

/-- Run words. -/
def runWords (fuel : Nat) (path : Text) (options : RunOptions) (words : Array Word) : Session :=
  match (Machine.load words).initialiseAll options.set with
  | .error why => fail (runHeading path) why
  | .ok m =>
    match m.run options.maxSteps fuel with
    | none => .unfinished
    | some (_, some fault) => fail (runHeading path) (.machine fault)
    | some (m, none) => reportRun path options m

/-- Load a file and run it. -/
def loadAndRun (fuel : Nat) (path : Text) (options : RunOptions) (text : Text) : Session :=
  match loadWords path text with
  | .error why => fail (runHeading path) why
  | .ok words => runWords fuel path options words

/-- Run a file. -/
def runSession (fuel : Nat) (path : Text) (options : RunOptions) : Session :=
  .read path fun content =>
    match inputText path content with
    | .error why => fail (runHeading path) why
    | .ok text =>
      if Path.extension path = sourceExtension then
        .log (.assembling text) (loadAndRun fuel path options text)
      else loadAndRun fuel path options text

/-! ## All commands -/

/-- What a command does. -/
def session (s : Surroundings) : Command → Session
  | .assemble path options => assembleSession s path options
  | .disassemble path out => disassembleSession path out
  | .run path options => runSession s.fuel path options

/-- What arguments do that spell a command or are refused.  Arguments that are used wrongly print
nothing; asking for help succeeds. -/
def sessionOf (s : Surroundings) : Except Refusal Command → Session
  | .ok command => command.session s
  | .error .usage => .finish false
  | .error (.help text) => .print .output text fun _ => .finish true

end Command
end HackMachine
