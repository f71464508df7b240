import HackMachine.Assembly.Assembler
import HackMachine.Files.Path
import HackMachine.Files.Session
import HackMachine.Machine.Basic

/-!
# The input of a command

A command reads a source text or a listing of words.  Both are read line by line in the same way, so
a listing may have comments and empty lines.

On the command line a memory cell is named by its address in decimal digits, or by a predefined
symbol.  An address need not exist, but it must fit a word.

A command can fail in each of the things it does.  `Failure` names them, and `Failure.message` is
what is printed behind the name of the command.
-/

namespace HackMachine

/-! ## Failures -/

/-- Why a command fails. -/
inductive Failure where
  /-- The input file cannot be opened. -/
  | input (path : Text) (fault : FileFault)
  /-- The output file of an assembly cannot be written. -/
  | output (path : Text) (fault : FileFault)
  /-- Another request to the file system is refused. -/
  | file (fault : FileFault)
  /-- The output cannot be printed. -/
  | print (fault : PrintFault)
  /-- The output has no path, since the working directory is not known. -/
  | directory (fault : Path.DirectoryFault)
  /-- The source does not assemble, or cannot be read at all. -/
  | assembly (fault : AssemblyFault)
  /-- A line of a listing is not a word. -/
  | word (line : Int) (fault : Word.Fault)
  /-- A word of a listing is not an instruction. -/
  | instruction (line : Int) (why : Malformation)
  /-- The machine fails. -/
  | machine (fault : MachineFault)
  /-- A name denotes no memory cell. -/
  | memoryName (name : Text)
  deriving DecidableEq

namespace Failure

/-- The number of a line in front of what is reported about it. -/
def atLine (line : Int) (report : Text) : Text :=
  Text.ascii "line " ++ Text.signedDecimal line ++ Text.ascii ": " ++ report

/-- What is reported about a failure. -/
def message : Failure → Text
  | .input path fault =>
    Text.ascii "failed to read input file " ++ path.quoted ++ Text.ascii ": " ++ fault.message
  | .output path fault =>
    Text.ascii "failed to write output file " ++ path.quoted ++ Text.ascii ": " ++ fault.message
  | .file fault => fault.message
  | .print fault => fault.message
  | .directory fault => fault.message
  | .assembly fault => fault.message
  | .word line fault => atLine line fault.message
  | .instruction line why => atLine line why.message
  | .machine fault => fault.message
  | .memoryName name => Text.ascii "unknown RAM address " ++ name.quoted

end Failure

/-! ## Files -/

/-- The text of the input file.  A file that can be opened but not read stops the reading of its
first line. -/
def inputText (path : Text) : Except FileFault Text → Except Failure Text
  | .ok content => .ok content
  | .error (.opening p cause) => .error (.input path (.opening p cause))
  | .error (.reading p cause) =>
    .error (.assembly (.source ⟨1, .unreadable (FileFault.reading p cause).message⟩))

/-- The program that a source text assembles to. -/
def inputProgram (text : Text) : Except Failure Program :=
  (assembleText text).mapError .assembly

/-- The lines of a listing. -/
def inputLines (text : Text) : Except Failure (List SourceLine) :=
  (Source.read text).mapError fun fault => .assembly (.source fault)

/-- The word on a line of a listing. -/
def lineWord (line : SourceLine) : Except Failure Word :=
  (Word.ofBinary line.text).mapError (.word line.number)

/-- The instruction on a line of a listing. -/
def lineInstruction (line : SourceLine) : Except Failure Instruction :=
  match lineWord line with
  | .error failure => .error failure
  | .ok word => (Instruction.decode word).mapError (.instruction line.number)

/-- The words of a listing. -/
def listingWords (text : Text) : Except Failure (List Word) := do
  let lines ← inputLines text
  lines.mapM lineWord

/-- The instructions of a listing. -/
def listingInstructions (text : Text) : Except Failure (List Instruction) := do
  let lines ← inputLines text
  lines.mapM lineInstruction

/-- The extension of files that hold source text. -/
def sourceExtension : Text := Text.ascii ".asm"

/-- The extension of files that hold listings. -/
def listingExtension : Text := Text.ascii ".hack"

/-! ## Memory cells by name -/

/-- The address that a name denotes. -/
def memoryAddress (name : Text) : Except Failure Word :=
  match Text.natural? name with
  | some n => if n < UInt16.size then .ok (UInt16.ofNat n) else .error (.memoryName name)
  | none =>
    match predefinedAddress? name with
    | some n => .ok (UInt16.ofNat n)
    | none => .error (.memoryName name)

namespace Machine

/-- Give a cell its value at the start. -/
def initialise (m : Machine) (setting : Text × Int) : Except Failure Machine :=
  match memoryAddress setting.1 with
  | .error failure => .error failure
  | .ok address => (m.write address (UInt16.ofInt setting.2)).mapError .machine

/-- Give several cells their values, in order. -/
def initialiseAll (m : Machine) (settings : List (Text × Int)) : Except Failure Machine :=
  settings.foldlM initialise m

/-- A line with the name of a cell and its content as a signed number. -/
def dumpCell (m : Machine) (name : Text) : Except Failure Text :=
  match memoryAddress name with
  | .error failure => .error failure
  | .ok address =>
    match m.read address with
    | .error fault => .error (.machine fault)
    | .ok value =>
      .ok (name ++ Text.ascii "=" ++ Text.signedDecimal value.toSigned ++ [Text.newline])

/-- The lines of several cells, up to the first that fails, and its failure. -/
def dumpCells (m : Machine) : List Text → List Text × Option Failure
  | [] => ([], none)
  | name :: rest =>
    match m.dumpCell name with
    | .error failure => ([], some failure)
    | .ok line =>
      match dumpCells m rest with
      | (lines, failure) => (line :: lines, failure)

end Machine

end HackMachine
