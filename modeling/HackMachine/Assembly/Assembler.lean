import HackMachine.Assembly.Passes

/-!
# Assembling

`assemble` runs the two passes over a list of lines.  Every run starts afresh; what is left behind
is the phase it ended in, the symbol table as it was then, and the resolver if the second pass has
begun, whether the run succeeded or not.

The result is a program: a sequence of words.  Each word remembers the source line it comes from, so
the map from addresses back to lines is part of the sequence.  The symbols of the program are kept
for listings.
-/

namespace HackMachine

/-! ## Programs -/

/-- The result of an assembly. -/
structure Program where
  code : Array Emitted
  symbols : List Symbol

/-- A listing of words: sixteen binary digits and a line feed for each. -/
def listing (words : Array Word) : Text :=
  words.toList.flatMap fun w => w.binary ++ [Text.newline]

/-- The number of bytes that is reported for a written listing.  It is added up line by line, in 64
bits. -/
def listingSize (words : Array Word) : Int64 :=
  words.toList.foldl (fun size w => size + Int64.ofNat (w.binary ++ [Text.newline]).length) 0

namespace Program

/-- The words of a program. -/
def words (p : Program) : Array Word := (p.code.toList.map (·.word)).toArray

/-- The address of each word with the number of its source line. -/
def sourceMap (p : Program) : List (Nat × Int) :=
  p.code.toList.zipIdx.map fun entry => (entry.2, entry.1.line)

end Program

/-! ## Runs of an assembler -/

/-- How far a run has come. -/
inductive Phase where
  | resolvingLabels
  | encodingInstructions
  | done
  deriving DecidableEq

namespace Phase

/-- The name of a phase. -/
def text : Phase → Text
  | .resolvingLabels => Text.ascii "resolving labels"
  | .encodingInstructions => Text.ascii "encoding instructions"
  | .done => Text.ascii "done"

/-- The phases are numbered in the order in which a run passes through them. -/
def ofCode? (code : Int) : Option Phase :=
  if code = 0 then some .resolvingLabels
  else if code = 1 then some .encodingInstructions
  else if code = 2 then some .done
  else none

/-- The name of the phase with a number, or the number itself if there is none. -/
def describe (code : Int) : Text :=
  match ofCode? code with
  | some phase => phase.text
  | none => Text.ascii "Phase(" ++ Text.signedDecimal code ++ Text.ascii ")"

end Phase

/-- What a run leaves behind. -/
structure Assembler where
  phase : Phase
  table : SymbolTable
  /-- The resolver of the second pass, if the run has come so far. -/
  resolver : Option Resolver

namespace Assembler

/-- Nothing has been run yet. -/
def fresh : Assembler := ⟨.resolvingLabels, .empty, none⟩

/-- Run the first pass on the table of the assembler.  The result is the number of instructions. -/
def layOut (a : Assembler) (lines : List SourceLine) : Assembler × Except LineFault Nat :=
  match (Layout.mk a.table 0).addLines lines with
  | (layout, some fault) => ({ a with table := layout.table }, .error fault)
  | (layout, none) => ({ a with table := layout.table }, .ok layout.count)

/-- Run the second pass with a new resolver for `count` instructions. -/
def emit (a : Assembler) (lines : List SourceLine) (count : Nat) :
    Assembler × Except LineFault (Array Emitted) :=
  match (Emission.start ⟨a.table, count⟩).addLines lines with
  | (e, some fault) => ({ a with table := e.table, resolver := some e.resolver }, .error fault)
  | (e, none) => ({ a with table := e.table, resolver := some e.resolver }, .ok e.code)

/-- Assemble lines.  Whatever earlier runs have left behind is reset first. -/
def assemble (a : Assembler) (lines : List SourceLine) : Assembler × Except LineFault Program :=
  let a := { a with table := .initial, resolver := none, phase := .resolvingLabels }
  match a.layOut lines with
  | (a, .error fault) => (a, .error fault)
  | (a, .ok count) =>
    match { a with phase := .encodingInstructions }.emit lines count with
    | (a, .error fault) => (a, .error fault)
    | (a, .ok code) => ({ a with phase := .done }, .ok ⟨code, a.table.symbols⟩)

end Assembler

/-- Why a source text does not become a program. -/
inductive AssemblyFault where
  | source (fault : Source.Fault)
  | line (fault : LineFault)
  deriving DecidableEq

/-- What is reported about a source text that does not assemble. -/
def AssemblyFault.message : AssemblyFault → Text
  | .source fault => fault.message
  | .line fault => fault.message

/-- Assemble a list of lines. -/
def assembleLines (lines : List SourceLine) : Except LineFault Program :=
  (Assembler.fresh.assemble lines).2

/-- Assemble a source text. -/
def assembleText (t : Text) : Except AssemblyFault Program :=
  match Source.read t with
  | .error fault => .error (.source fault)
  | .ok lines => (assembleLines lines).mapError .line

end HackMachine
