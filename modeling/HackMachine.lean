import HackMachine.Text.Basic
import HackMachine.Text.Glyph
import HackMachine.Text.Printable
import HackMachine.Text.Quoted
import HackMachine.Text.Numeral
import HackMachine.Word
import HackMachine.Instruction.Fields
import HackMachine.Instruction.Computation
import HackMachine.Instruction.Malformation
import HackMachine.Instruction.Format
import HackMachine.Instruction.Basic
import HackMachine.Symbol.Basic
import HackMachine.Symbol.Table
import HackMachine.Source
import HackMachine.Statement
import HackMachine.Assembly.Fault
import HackMachine.Assembly.Resolver
import HackMachine.Assembly.Passes
import HackMachine.Assembly.Assembler
import HackMachine.Machine.Basic
import HackMachine.Machine.Step
import HackMachine.Files.Path
import HackMachine.Files.Session
import HackMachine.Files.Tree
import HackMachine.Command.Input
import HackMachine.Command.Session
import HackMachine.Main.Flag
import HackMachine.Main.Interface
import HackMachine.Main
import HackMachine.Proofs.Scan
import HackMachine.Proofs.Text.Numeral
import HackMachine.Proofs.Text.Plain
import HackMachine.Proofs.Symbol.Table
import HackMachine.Proofs.Symbol.Resolver
import HackMachine.Proofs.Source
import HackMachine.Proofs.Statement
import HackMachine.Proofs.Instruction.Codec
import HackMachine.Proofs.Instruction.Text
import HackMachine.Proofs.Assembly.Meaning
import HackMachine.Proofs.Assembly.Labels
import HackMachine.Proofs.Assembly.Words
import HackMachine.Proofs.Assembly.Symbols
import HackMachine.Proofs.Assembly.Correctness
import HackMachine.Proofs.Disassembly
import HackMachine.Proofs.Machine.Arithmetic
import HackMachine.Proofs.Machine.Step
import HackMachine.Proofs.Machine.Interpreter
import HackMachine.Proofs.Machine.Simulation
import HackMachine.Proofs.Machine.Run
import HackMachine.Proofs.Machine.Limit
import HackMachine.Proofs.Machine.Idle
import HackMachine.Proofs.Grammar
import HackMachine.Proofs.Assembly.Renaming
import HackMachine.Proofs.Assembly.Reuse
import HackMachine.Proofs.Symbol.History
import HackMachine.Proofs.Assembly.SourceMap
import HackMachine.Proofs.Assembly.Appending
import HackMachine.Proofs.Command.Run
import HackMachine.Proofs.Command.Settings
import HackMachine.Proofs.Machine.Resume
import HackMachine.Proofs.Machine.StraightLine
import HackMachine.Proofs.Command.Effect
import HackMachine.Proofs.Machine.Bounded
import HackMachine.Proofs.Machine.Access
import HackMachine.Proofs.Machine.Frame
import HackMachine.Proofs.Machine.Range
import HackMachine.Proofs.Instruction.Canonical
import HackMachine.Proofs.Symbol.Shortcut
import HackMachine.Proofs.Symbol.Listing
import HackMachine.Proofs.Text.Trim
import HackMachine.Proofs.Source.Cleaning
import HackMachine.Proofs.Source.Concatenation
import HackMachine.Proofs.Assembly.Literal
import HackMachine.Proofs.Command.CellNames
import HackMachine.Proofs.Files.Path
import HackMachine.Proofs.Assembly.Formatting
