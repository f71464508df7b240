import HackMachine.Proofs.Assembly.Symbols
import HackMachine.Proofs.Assembly.Words

/-!
# Assembling gives a program its meaning

The two passes together: a program that assembles becomes the words and symbols of its meaning
(`assembleLines_gives_meaning`), and a program does not assemble exactly if a line is at fault, where
faults of the first pass come before those of the second (`assembleLines_reports_first_fault`).

The symbols of the meaning are listed by `programSymbols`: the predefined names, the labels in the
order of their lines, and the variables by first use.  The assembler lists them in another order, so
the two lists are permutations of each other.
-/

namespace HackMachine

open Meaning

/-! ## The two passes -/

namespace Assembler

section Passes

variable {lines : List SourceLine} {layout : Layout} {e : Emission} {fault : LineFault}

/-- A run that stops in the first pass.  Like every run, it does not depend on what the assembler has
kept from earlier ones. -/
theorem assemble_of_first_fault (first : Layout.start.addLines lines = (layout, some fault))
    (a : Assembler) :
    a.assemble lines = (⟨.resolvingLabels, layout.table, none⟩, .error fault) := by
  have first' : (Layout.mk .initial 0).addLines lines = (layout, some fault) := first
  simp only [assemble, layOut, first']

theorem assemble_of_second_fault (first : Layout.start.addLines lines = (layout, none))
    (second : scan Emission.addLine (Emission.start layout) lines = (e, some fault))
    (a : Assembler) :
    a.assemble lines =
      (⟨.encodingInstructions, e.table, some e.resolver⟩, .error fault) := by
  have first' : (Layout.mk .initial 0).addLines lines = (layout, none) := first
  rw [← Emission.addLines_eq_scan] at second
  simp only [assemble, layOut, first', emit, second]

theorem assemble_of_passes (first : Layout.start.addLines lines = (layout, none))
    (second : scan Emission.addLine (Emission.start layout) lines = (e, none)) (a : Assembler) :
    a.assemble lines =
      (⟨.done, e.table, some e.resolver⟩, .ok ⟨e.code, e.table.symbols⟩) := by
  have first' : (Layout.mk .initial 0).addLines lines = (layout, none) := first
  rw [← Emission.addLines_eq_scan] at second
  simp only [assemble, layOut, first', emit, second]

end Passes

/-- How a run goes: it stops in the first pass, or in the second, or comes through both. -/
theorem assemble_cases (a : Assembler) (lines : List SourceLine) :
    (∃ layout fault, scan Layout.addLine Layout.start lines = (layout, some fault) ∧
        a.assemble lines = (⟨.resolvingLabels, layout.table, none⟩, .error fault)) ∨
      ∃ layout, Layout.start.addLines lines = (layout, none) ∧
        ((∃ e fault, scan Emission.addLine (Emission.start layout) lines = (e, some fault) ∧
            a.assemble lines =
              (⟨.encodingInstructions, e.table, some e.resolver⟩, .error fault)) ∨
          ∃ e, scan Emission.addLine (Emission.start layout) lines = (e, none) ∧
            a.assemble lines =
              (⟨.done, e.table, some e.resolver⟩, .ok ⟨e.code, e.table.symbols⟩)) := by
  rcases first : Layout.start.addLines lines with ⟨layout, _ | fault⟩
  · refine .inr ⟨layout, rfl, ?_⟩
    rcases second : scan Emission.addLine (Emission.start layout) lines with ⟨e, _ | fault⟩
    · exact .inr ⟨e, rfl, assemble_of_passes first second a⟩
    · exact .inl ⟨e, fault, rfl, assemble_of_second_fault first second a⟩
  · refine .inl ⟨layout, fault, ?_, assemble_of_first_fault first a⟩
    rw [← Layout.addLines_eq_scan, first]

end Assembler

/-- A program that assembles has passed both passes. -/
theorem passes_of_assembleLines_ok {lines : List SourceLine} {p : Program}
    (h : assembleLines lines = .ok p) :
    ∃ layout e, Layout.start.addLines lines = (layout, none) ∧
      scan Emission.addLine (Emission.start layout) lines = (e, none) ∧
      p = ⟨e.code, e.table.symbols⟩ := by
  rw [assembleLines] at h
  rcases Assembler.fresh.assemble_cases lines with
    ⟨_, _, -, ran⟩ | ⟨layout, first, ⟨_, _, -, ran⟩ | ⟨e, second, ran⟩⟩ <;> rw [ran] at h
  · cases h
  · cases h
  · exact ⟨layout, e, first, second, (Except.ok.inj h).symm⟩

/-- A program that does not assemble has failed in one of the passes. -/
theorem passes_of_assembleLines_error {lines : List SourceLine} {fault : LineFault}
    (h : assembleLines lines = .error fault) :
    (∃ layout, scan Layout.addLine Layout.start lines = (layout, some fault)) ∨
      ∃ layout e, Layout.start.addLines lines = (layout, none) ∧
        scan Emission.addLine (Emission.start layout) lines = (e, some fault) := by
  rw [assembleLines] at h
  rcases Assembler.fresh.assemble_cases lines with
    ⟨layout, _, first, ran⟩ | ⟨layout, first, ⟨e, _, second, ran⟩ | ⟨_, -, ran⟩⟩ <;> rw [ran] at h
  · cases h
    exact .inl ⟨layout, first⟩
  · cases h
    exact .inr ⟨layout, e, first, second⟩
  · cases h

theorem assembleLines_of_first_fault {lines : List SourceLine} {layout : Layout} {fault : LineFault}
    (first : Layout.start.addLines lines = (layout, some fault)) :
    assembleLines lines = .error fault := by
  rw [assembleLines, Assembler.assemble_of_first_fault first]

theorem assembleLines_of_second_fault {lines : List SourceLine} {layout : Layout} {e : Emission}
    {fault : LineFault} (first : Layout.start.addLines lines = (layout, none))
    (second : scan Emission.addLine (Emission.start layout) lines = (e, some fault)) :
    assembleLines lines = .error fault := by
  rw [assembleLines, Assembler.assemble_of_second_fault first second]

theorem assembleLines_of_passes {lines : List SourceLine} {layout : Layout} {e : Emission}
    (first : Layout.start.addLines lines = (layout, none))
    (second : scan Emission.addLine (Emission.start layout) lines = (e, none)) :
    assembleLines lines = .ok ⟨e.code, e.table.symbols⟩ := by
  rw [assembleLines, Assembler.assemble_of_passes first second]

/-- A source text assembles if it can be read and its lines assemble. -/
theorem assembleText_eq_ok_iff {t : Text} {p : Program} :
    assembleText t = .ok p ↔ ∃ lines, Source.read t = .ok lines ∧ assembleLines lines = .ok p := by
  unfold assembleText
  cases Source.read t with
  | error fault => exact ⟨nofun, nofun⟩
  | ok lines =>
    have ofLines : (assembleLines lines).mapError AssemblyFault.line = .ok p ↔
        assembleLines lines = .ok p := by
      cases assembleLines lines <;> simp [Except.mapError]
    simpa using ofLines

/-- A source text has a faulty line if it can be read and its lines do not assemble. -/
theorem assembleText_eq_line_iff {t : Text} {f : LineFault} :
    assembleText t = .error (.line f) ↔
      ∃ lines, Source.read t = .ok lines ∧ assembleLines lines = .error f := by
  unfold assembleText
  cases Source.read t with
  | error fault => exact ⟨nofun, nofun⟩
  | ok lines =>
    have ofLines : (assembleLines lines).mapError AssemblyFault.line = .error (.line f) ↔
        assembleLines lines = .error f := by
      cases assembleLines lines <;> simp [Except.mapError]
    simpa using ofLines

/-! ## Programs that assemble -/

/-- A program that assembles has no fault of the first pass, and the second pass has emitted its
words. -/
theorem describes_of_assembleLines_ok {lines : List SourceLine} {p : Program}
    (h : assembleLines lines = .ok p) :
    (∀ i fault, ¬ LayoutFault lines i fault) ∧
      ∃ e, Emission.Describes lines lines e ∧ p = ⟨e.code, e.table.symbols⟩ := by
  obtain ⟨layout, e, first, second, rfl⟩ := passes_of_assembleLines_ok h
  exact ⟨not_layoutFault_of_addLines first, e,
    Emission.describes_of_scan (Layout.describes_of_addLines first) (List.prefix_refl lines) second,
    rfl⟩

/-- Words that each encode some instruction are the encoding of a list of instructions. -/
theorem exists_instructions {α : Type} {R : α → Instruction → Prop} {xs : List α}
    {ws : List Word} (h : List.Forall₂ (fun x w => ∃ i, R x i ∧ w = i.encode) xs ws) :
    ∃ instructions, List.Forall₂ R xs instructions ∧ ws = instructions.map Instruction.encode := by
  induction h with
  | nil => exact ⟨[], .nil, rfl⟩
  | cons first _ ih =>
    obtain ⟨i, related, rfl⟩ := first
    obtain ⟨instructions, others, rfl⟩ := ih
    exact ⟨i :: instructions, .cons related others, rfl⟩

/-- The words of a program that assembles encode the instructions that its operations mean. -/
theorem exists_means_of_assembleLines_ok {lines : List SourceLine} {p : Program}
    (h : assembleLines lines = .ok p) :
    ∃ instructions, List.Forall₂ (Means lines) (operations lines) instructions ∧
      p.words.toList = instructions.map Instruction.encode := by
  obtain ⟨-, e, d, rfl⟩ := describes_of_assembleLines_ok h
  apply exists_instructions
  rw [← map_op_located, Program.words, List.forall₂_map_left_iff, List.forall₂_map_right_iff]
  exact d.code.imp fun _ _ emitted => emitted.1

/-- A program that assembles becomes its meaning: one word for each instruction line, in order, and
the symbols of the program. -/
theorem assembleLines_gives_meaning {lines : List SourceLine} {p : Program}
    (h : assembleLines lines = .ok p) :
    List.Forall₂ (Denotes lines) (operations lines) p.words.toList ∧
      p.symbols.Perm (predefinedSymbols ++ (labelSymbols lines ++ variableSymbols lines)) ∧
      predefinedSymbols.length = 23 := by
  refine ⟨?_, ?_, rfl⟩
  · obtain ⟨instructions, means, words⟩ := exists_means_of_assembleLines_ok h
    rw [words, List.forall₂_map_right_iff]
    exact means.imp fun _ _ => denotes_of_means
  · obtain ⟨clean, e, d, rfl⟩ := describes_of_assembleLines_ok h
    exact symbols_perm_programSymbols clean d.knows.lookup

/-- A program with a label that is used before its line, a variable and a predefined name. -/
def forwardLabel : List SourceLine :=
  [⟨1, Text.ascii "@END"⟩, ⟨2, Text.ascii "@i"⟩, ⟨3, Text.ascii "M=1"⟩, ⟨4, Text.ascii "(END)"⟩,
    ⟨7, Text.ascii "@R1"⟩, ⟨8, Text.ascii "0;JMP"⟩]

theorem assembleLines_gives_meaning_forwardLabel :
    ∃ p, assembleLines forwardLabel = .ok p ∧ p.words.toList = [3, 16, 0xEFC8, 1, 0xEA87] ∧
      List.Forall₂ (Denotes forwardLabel) (operations forwardLabel) p.words.toList ∧
      p.symbols.Perm
        (predefinedSymbols ++ (labelSymbols forwardLabel ++ variableSymbols forwardLabel)) ∧
      predefinedSymbols.length = 23 := by
  have words : (assembleLines forwardLabel).map (fun p => p.words.toList) =
      .ok [3, 16, 0xEFC8, 1, 0xEA87] := rfl
  cases assembled : assembleLines forwardLabel with
  | ok p =>
    rw [assembled] at words
    exact ⟨p, rfl, Except.ok.inj words, assembleLines_gives_meaning assembled⟩
  | error fault =>
    rw [assembled] at words
    cases words

/-! ## Programs that do not assemble -/

/-- No line of a program that assembles is at fault. -/
theorem not_fault_of_assembleLines_ok {lines : List SourceLine} {p : Program}
    (h : assembleLines lines = .ok p) :
    (∀ i fault, ¬ LayoutFault lines i fault) ∧ ∀ i fault, ¬ EncodingFault lines i fault := by
  obtain ⟨layout, e, first, second, -⟩ := passes_of_assembleLines_ok h
  have clean := not_layoutFault_of_addLines first
  refine ⟨clean, fun i fault bad => ?_⟩
  obtain ⟨line, -, at_i, -⟩ := bad.exists_operation
  have faults := Emission.encodingFaults (Layout.describes_of_addLines first) clean
  exact faults.not_bad_of_none second i ⟨line, fault⟩ ⟨at_i, bad⟩

/-- What is reported is the first fault of the first pass, or else the first of the second. -/
theorem first_fault_of_assembleLines_error {lines : List SourceLine} {f : LineFault}
    (h : assembleLines lines = .error f) :
    (∃ i, lines[i]? = some f.line ∧ LayoutFault lines i f.fault ∧
        ∀ j < i, ∀ fault, ¬ LayoutFault lines j fault) ∨
      (∀ i fault, ¬ LayoutFault lines i fault) ∧
        ∃ i, lines[i]? = some f.line ∧ EncodingFault lines i f.fault ∧
          ∀ j < i, ∀ fault, ¬ EncodingFault lines j fault := by
  rcases passes_of_assembleLines_error h with ⟨layout, first⟩ | ⟨layout, e, first, second⟩
  · obtain ⟨i, -, -, -, -, -, ⟨at_i, bad⟩, least⟩ :=
      (Layout.layoutFaults lines).exists_first_bad_of_some first
    refine .inl ⟨i, at_i, bad, fun j before fault earlier => ?_⟩
    obtain ⟨line, at_j⟩ := earlier.exists_line
    exact least j before ⟨line, fault⟩ ⟨at_j, earlier⟩
  · have clean := not_layoutFault_of_addLines first
    have faults := Emission.encodingFaults (Layout.describes_of_addLines first) clean
    obtain ⟨i, -, -, -, -, -, ⟨at_i, bad⟩, least⟩ := faults.exists_first_bad_of_some second
    refine .inr ⟨clean, i, at_i, bad, fun j before fault earlier => ?_⟩
    obtain ⟨line, -, at_j, -⟩ := earlier.exists_operation
    exact least j before ⟨line, fault⟩ ⟨at_j, earlier⟩

/-- A literal that does not fit stands before a label that is taken; the label is reported. -/
def takenLabel : List SourceLine := [⟨1, Text.ascii "@40000"⟩, ⟨2, Text.ascii "(SP)"⟩]

end HackMachine
