import HackMachine.Command.Session
import HackMachine.Proofs.Assembly.Correctness
import HackMachine.Proofs.Instruction.Text
import Mathlib.Data.Set.List

/-!
# Disassembling and assembling

The text that a disassembler writes for a list of instructions assembles to the words of these
instructions (`assembleText_assemblyText`).  Since a word decodes exactly if it is the word of an
instruction, and an assembler emits no other words, the programs that a source text can describe are
those that can be disassembled (`assembleText_inverts_disassembly`).

Nothing has to be said about the two passes again.  The lines of such a text are no labels and use no
names, so none of the faults of a pass applies to them, and a program without a fault assembles.
-/

namespace HackMachine

open Meaning Command

/-! ## The lines of a disassembly -/

/-- The lines that a disassembler writes, numbered from one on. -/
def instructionLines (instructions : List Instruction) : List SourceLine :=
  (instructions.zipIdx 1).map fun entry => ⟨entry.2, entry.1.text⟩

variable {instructions : List Instruction}

/-- What a disassembler writes is read as its lines. -/
theorem read_assemblyText (instructions : List Instruction) :
    Source.read (assemblyText instructions) = .ok (instructionLines instructions) :=
  Source.read_flatMap_of_plain fun i _ => i.isPlain_text

/-- The operation of a line that spells an instruction. -/
theorem operation?_text (n : Int) (i : Instruction) :
    SourceLine.operation? ⟨n, i.text⟩ = some i.operation :=
  SourceLine.operation?_eq_some_iff.2 i.parse_text

/-- Every line of a disassembly spells an instruction. -/
theorem exists_of_mem_instructionLines {line : SourceLine}
    (h : line ∈ instructionLines instructions) :
    ∃ i : Instruction, Statement.parse line.text = .ok (.operation i.operation) := by
  obtain ⟨entry, -, rfl⟩ := List.mem_map.1 h
  exact ⟨entry.1, entry.1.parse_text⟩

theorem label?_of_mem_instructionLines {line : SourceLine}
    (h : line ∈ instructionLines instructions) : line.label? = none := by
  obtain ⟨i, parsed⟩ := exists_of_mem_instructionLines h
  rw [SourceLine.label?, parsed]

/-- Operands of a disassembly are numbers, and its computations are those of instructions. -/
theorem eq_operation_of_mem_instructionLines {line : SourceLine} {op : Operation}
    (h : line ∈ instructionLines instructions) (hop : line.operation? = some op) :
    ∃ i : Instruction, op = i.operation := by
  obtain ⟨i, parsed⟩ := exists_of_mem_instructionLines h
  rw [SourceLine.operation?_eq_some_iff, parsed] at hop
  cases hop
  exact ⟨i, rfl⟩

theorem name?_operation (i : Instruction) : i.operation.name? = none := by
  cases i <;> rfl

theorem located_instructionLines (instructions : List Instruction) :
    located (instructionLines instructions) =
      (instructions.zipIdx 1).map fun entry =>
        ⟨⟨entry.2, entry.1.text⟩, entry.1.operation⟩ := by
  rw [located, instructionLines, List.filterMap_map, ← List.filterMap_eq_map]
  apply List.filterMap_congr
  intro entry _
  simp only [Function.comp_apply, operation?_text]
  rfl

theorem operations_instructionLines (instructions : List Instruction) :
    operations (instructionLines instructions) = instructions.map Instruction.operation := by
  rw [← map_op_located, located_instructionLines, List.map_map]
  conv_rhs => rw [← List.zipIdx_map_fst 1 instructions, List.map_map]
  rfl

/-! ## They assemble -/

theorem not_layoutFault_instructionLines {i : Nat} {fault : Fault} :
    ¬ LayoutFault (instructionLines instructions) i fault := by
  intro bad
  cases bad with
  | unreadable at_i parsed =>
    obtain ⟨_, parsed'⟩ := exists_of_mem_instructionLines (List.mem_of_getElem? at_i)
    rw [parsed] at parsed'
    cases parsed'
  | predefined at_i label | repeated at_i label =>
    rw [label?_of_mem_instructionLines (List.mem_of_getElem? at_i)] at label
    cases label

theorem not_encodingFault_instructionLines {i : Nat} {fault : Fault} :
    ¬ EncodingFault (instructionLines instructions) i fault := by
  intro bad
  cases bad with
  | literal at_i operand far =>
    obtain ⟨i, same⟩ := eq_operation_of_mem_instructionLines (List.mem_of_getElem? at_i) operand
    cases i with
    | load value =>
      cases same
      have fits : value.val < 32768 := value.isLt
      omega
    | compute => cases same
  | deadLabel at_i operand | farLabel at_i operand | farVariable at_i operand =>
    obtain ⟨i, same⟩ := eq_operation_of_mem_instructionLines (List.mem_of_getElem? at_i) operand
    cases i <;> cases same
  | computation at_i fields unknown =>
    obtain ⟨i, same⟩ := eq_operation_of_mem_instructionLines (List.mem_of_getElem? at_i) fields
    cases i with
    | load => cases same
    | compute dest comp jump =>
      cases same
      rw [Instruction.ofFields_text] at unknown
      cases unknown

/-- The lines of a disassembly assemble. -/
theorem exists_assembleLines_instructionLines (instructions : List Instruction) :
    ∃ p, assembleLines (instructionLines instructions) = .ok p := by
  cases h : assembleLines (instructionLines instructions) with
  | ok p => exact ⟨p, rfl⟩
  | error f =>
    rcases first_fault_of_assembleLines_error h with ⟨_, _, bad, _⟩ | ⟨_, _, _, bad, _⟩
    · exact absurd bad not_layoutFault_instructionLines
    · exact absurd bad not_encodingFault_instructionLines

/-! ## What they assemble to -/

/-- The statement that spells an instruction means this instruction. -/
theorem eq_of_means_operation {lines : List SourceLine} {i other : Instruction}
    (h : Means lines i.operation other) : other = i := by
  cases i with
  | load value =>
    cases other with
    | load address => exact congrArg Instruction.load (Fin.ext h)
    | compute => exact h.elim
  | compute dest comp jump =>
    change Instruction.ofFields dest.text comp.text jump.text = .ok other at h
    rw [Instruction.ofFields_text] at h
    exact (Except.ok.inj h).symm

/-- Each instruction is emitted with the number of its line. -/
theorem code_of_instructionLines {p : Program}
    (h : assembleLines (instructionLines instructions) = .ok p) :
    p.code.toList = (instructions.zipIdx 1).map fun entry => ⟨entry.1.encode, entry.2⟩ := by
  obtain ⟨-, e, d, rfl⟩ := describes_of_assembleLines_ok h
  have code := d.code
  rw [located_instructionLines, List.forall₂_map_left_iff] at code
  symm
  rw [← List.forall₂_eq_eq_eq, List.forall₂_map_left_iff]
  refine code.imp ?_
  rintro entry c ⟨⟨i, means, isWord⟩, number⟩
  rw [eq_of_means_operation means] at isWord
  change c.line = entry.2 at number
  rw [← isWord, ← number]

/-- A disassembly has no symbols of its own. -/
theorem symbols_of_instructionLines {p : Program}
    (h : assembleLines (instructionLines instructions) = .ok p) :
    p.symbols.Perm predefinedSymbols := by
  obtain ⟨clean, e, d, rfl⟩ := describes_of_assembleLines_ok h
  have labels : labelSymbols (instructionLines instructions) = [] := by
    rw [labelSymbols, List.filterMap_eq_nil_iff]
    intro entry hentry
    rw [label?_of_mem_instructionLines (List.fst_mem_of_mem_zipIdx hentry)]
    rfl
  have names : (operations (instructionLines instructions)).filterMap (·.name?) = [] := by
    rw [List.filterMap_eq_nil_iff]
    intro op hop
    obtain ⟨line, hline, hop⟩ := List.mem_filterMap.1 hop
    obtain ⟨i, rfl⟩ := eq_operation_of_mem_instructionLines hline hop
    exact name?_operation i
  have cells : variableSymbolsIn (instructionLines instructions)
      (instructionLines instructions) = [] := by
    rw [variableSymbolsIn, variablesIn, names]
    rfl
  have all := symbols_perm_programSymbols clean d.knows.lookup
  rw [programSymbols, symbolsIn, labels, cells] at all
  simpa using all

/-- What a disassembler writes assembles to the words of the instructions, line by line. -/
theorem assembleText_assemblyText (instructions : List Instruction) :
    ∃ p, assembleText (assemblyText instructions) = .ok p ∧
      p.words.toList = instructions.map Instruction.encode ∧
      p.sourceMap = (List.range instructions.length).map (fun k : Nat => (k, (k : Int) + 1)) ∧
      p.symbols.Perm predefinedSymbols := by
  obtain ⟨p, assembled⟩ := exists_assembleLines_instructionLines instructions
  have code := code_of_instructionLines assembled
  refine ⟨p, ?_, ?_, ?_, symbols_of_instructionLines assembled⟩
  · exact assembleText_eq_ok_iff.2 ⟨_, read_assemblyText instructions, assembled⟩
  · rw [Program.words, code, List.map_map]
    conv_rhs => rw [← List.zipIdx_map_fst 1 instructions, List.map_map]
    rfl
  · rw [Program.sourceMap, code]
    apply List.ext_getElem
    · simp
    · intro k _ _
      simp [Int.add_comm]

/-! ## Programs that have a source text -/

/-- Words that all decode are the encoding of what they decode to. -/
theorem eq_map_encode_of_map_decode {ws : List Word}
    (h : ws.map Instruction.decode = instructions.map .ok) :
    ws = instructions.map Instruction.encode := by
  rw [← List.forall₂_eq_eq_eq, List.forall₂_map_left_iff, List.forall₂_map_right_iff] at h
  rw [← List.forall₂_eq_eq_eq, List.forall₂_map_right_iff]
  exact h.imp fun _ _ decoded => (Instruction.decode_eq_ok_iff.1 decoded).symm

/-- A list of words is the program of some source text exactly if each of them can be decoded.  In
this case the text that a disassembler writes is such a source text: it assembles to the same words,
the word at address `k` comes from line `k + 1`, and there are no symbols but the predefined
ones. -/
theorem assembleText_inverts_disassembly (ws : List Word) :
    ((∃ t p, assembleText t = .ok p ∧ p.words.toList = ws) ↔
      ∀ w ∈ ws, ∃ i, Instruction.decode w = .ok i) ∧
    ∀ instructions : List Instruction, ws.map Instruction.decode = instructions.map .ok →
      ∃ p, assembleText (assemblyText instructions) = .ok p ∧ p.words.toList = ws ∧
        p.sourceMap = (List.range ws.length).map (fun k : Nat => (k, (k : Int) + 1)) ∧
        p.symbols.Perm predefinedSymbols := by
  refine ⟨⟨?_, fun decodes => ?_⟩, fun instructions decoded => ?_⟩
  · rintro ⟨t, p, assembled, rfl⟩ w hw
    obtain ⟨lines, -, assembled⟩ := assembleText_eq_ok_iff.1 assembled
    obtain ⟨instructions, -, words⟩ := exists_means_of_assembleLines_ok assembled
    rw [words] at hw
    obtain ⟨i, -, rfl⟩ := List.mem_map.1 hw
    exact ⟨i, i.decode_encode⟩
  · obtain ⟨instructions, rfl⟩ : ws ∈ Set.range (List.map Instruction.encode) := by
      rw [Set.range_list_map]
      intro w hw
      obtain ⟨i, decoded⟩ := decodes w hw
      exact ⟨i, Instruction.decode_eq_ok_iff.1 decoded⟩
    obtain ⟨p, assembled, words, -⟩ := assembleText_assemblyText instructions
    exact ⟨_, p, assembled, words⟩
  · obtain rfl := eq_map_encode_of_map_decode decoded
    rw [List.length_map]
    exact assembleText_assemblyText instructions

theorem assembleText_inverts_disassembly_copy :
    [2, 0xEC10].map Instruction.decode =
        [.load 2, .compute ⟨false, true, false⟩ (.single .same .register) .never].map .ok ∧
      ∃ p, assembleText (Text.ascii "@2\nD=A\n") = .ok p ∧ p.words.toList = [2, 0xEC10] ∧
        p.sourceMap = [(0, 1), (1, 2)] ∧ p.symbols.Perm predefinedSymbols := by
  have decoded : [2, 0xEC10].map Instruction.decode =
      [.load 2, .compute ⟨false, true, false⟩ (.single .same .register) .never].map .ok := by
    decide
  exact ⟨decoded, (assembleText_inverts_disassembly [2, 0xEC10]).2 _ decoded⟩

end HackMachine
