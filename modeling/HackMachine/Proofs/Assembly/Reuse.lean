import HackMachine.Proofs.Assembly.Correctness

/-!
# Using an assembler again

An assembler keeps three things from a run: the phase in which the run ended, the symbol table as it
was then, and the resolver of the second pass.  None of them has any influence on the next run.  What
they are depends on how far the run came, and `Leaves` tells the three ways apart:

* a run that succeeds is done, and the table has the symbols of the program;
* a run that stops in the first pass, at its first line at fault, has bound the labels of the lines
  before that line, and has no resolver;
* a run that stops in the second pass has bound all labels, and the variables that are used up to and
  including the line at fault.

A resolver knows the number of instructions and counts the variables that have been bound.

The last line counts in the second pass but not in the first.  A label that is refused is not bound,
but a variable is bound before its address is looked at, so it stays in the table even if it is the
very reason for the failure (`Leaves.lookup?_of_variable`).

One run is described by `Assembler.leaves_assemble`, and any sequence of runs on one assembler by
`assembleAll_accounts_for_table`.
-/

namespace HackMachine

open Meaning

namespace Assembler

/-- Several runs on one assembler: what each of them leaves behind and returns. -/
def assembleAll : Assembler → List (List SourceLine) → List (Assembler × Except LineFault Program)
  | _, [] => []
  | a, lines :: rest => a.assemble lines :: (a.assemble lines).1.assembleAll rest

end Assembler

/-- What a run over `lines` leaves behind, together with what it returns. -/
inductive Leaves (lines : List SourceLine) : Assembler → Except LineFault Program → Prop where
  /-- No line is at fault, and the table has all symbols of the program. -/
  | done {table : SymbolTable} {p : Program}
      (noLayoutFault : ∀ i fault, ¬ LayoutFault lines i fault)
      (noEncodingFault : ∀ i fault, ¬ EncodingFault lines i fault)
      (symbols : table.symbols.Perm
        (predefinedSymbols ++ (labelSymbols lines ++ variableSymbols lines)))
      (listed : p.symbols = table.symbols) :
      Leaves lines
        ⟨.done, table, some ⟨(operations lines).length, (variableNames lines).length⟩⟩ (.ok p)
  /-- Line `i` is the first that the first pass refuses, and the labels before it are bound. -/
  | resolvingLabels {i : Nat} {f : LineFault} {table : SymbolTable}
      (at_i : lines[i]? = some f.line) (bad : LayoutFault lines i f.fault)
      (first : ∀ j < i, ∀ fault, ¬ LayoutFault lines j fault)
      (symbols : table.symbols.Perm (predefinedSymbols ++ labelSymbols (lines.take i))) :
      Leaves lines ⟨.resolvingLabels, table, none⟩ (.error f)
  /-- Line `i` is the first that the second pass refuses, and all labels are bound and the variables
  of the lines up to line `i` itself. -/
  | encodingInstructions {i : Nat} {f : LineFault} {table : SymbolTable}
      (clean : ∀ i fault, ¬ LayoutFault lines i fault)
      (at_i : lines[i]? = some f.line) (bad : EncodingFault lines i f.fault)
      (first : ∀ j < i, ∀ fault, ¬ EncodingFault lines j fault)
      (symbols : table.symbols.Perm (predefinedSymbols ++
        (labelSymbols lines ++ variableSymbolsIn lines (lines.take (i + 1))))) :
      Leaves lines
        ⟨.encodingInstructions, table,
          some ⟨(operations lines).length, (variablesIn lines (lines.take (i + 1))).length⟩⟩
        (.error f)

/-! ## One run -/

/-- A first pass that stops at line `i` has bound the labels before that line. -/
theorem symbols_of_layout_fault {lines : List SourceLine} {i : Nat} {line : SourceLine}
    {before layout : Layout} {f : LineFault}
    (taken : scan Layout.addLine Layout.start (lines.take i) = (before, none))
    (stopped : before.addLine line = (layout, some f)) :
    layout.table.symbols.Perm (predefinedSymbols ++ labelSymbols (lines.take i)) := by
  rw [← Layout.addLines_eq_scan] at taken
  obtain ⟨rfl, -⟩ := Layout.addLine_eq_some stopped
  have symbols := symbols_perm_symbolsIn (not_layoutFault_of_addLines taken)
    (Layout.describes_of_addLines taken).table
  -- no variable has been looked at
  have none : variableSymbolsIn (lines.take i) [] = [] := rfl
  rwa [symbolsIn, none, List.append_nil] at symbols

/-- A second pass that stops at line `i` knows the names up to and including that line. -/
theorem knows_of_encoding_fault {lines : List SourceLine} {i : Nat} {line : SourceLine}
    {layout : Layout} {before e : Emission} {f : LineFault}
    (whole : Layout.start.addLines lines = (layout, none)) (at_i : lines[i]? = some line)
    (taken : scan Emission.addLine (Emission.start layout) (lines.take i) = (before, none))
    (stopped : before.addLine line = (e, some f)) :
    Emission.Knows lines (lines.take (i + 1)) e.table e.resolver := by
  have d := Emission.describes_of_scan (Layout.describes_of_addLines whole)
    (List.take_prefix i lines) taken
  obtain ⟨op, hop, added⟩ :=
    Emission.exists_operation_of_addLine (not_layoutFault_of_addLines whole) at_i stopped
  have knows := d.knows.encode hop (Emission.add_eq_some added).1
  rwa [Emission.take_concat at_i] at knows

/-- A resolver that knows the names of a part of the program. -/
theorem Emission.Knows.resolver_eq {lines done : List SourceLine} {table : SymbolTable}
    {r : Resolver} (k : Knows lines done table r) :
    r = ⟨(operations lines).length, (variablesIn lines done).length⟩ := by
  obtain ⟨programLength, allocated⟩ := r
  rw [← k.programLength, ← k.allocated]

/-- What a run leaves behind, whatever the assembler has kept from earlier ones. -/
theorem Assembler.leaves_assemble (a : Assembler) (lines : List SourceLine) :
    Leaves lines (a.assemble lines).1 (a.assemble lines).2 := by
  rcases a.assemble_cases lines with ⟨layout, f, first, ran⟩ |
    ⟨layout, whole, ⟨e, f, second, ran⟩ | ⟨e, second, ran⟩⟩
  · rw [ran]
    obtain ⟨i, line, before, -, taken, stopped, ⟨at_i, bad⟩, least⟩ :=
      (Layout.layoutFaults lines).exists_first_bad_of_some first
    refine .resolvingLabels at_i bad (fun j earlier fault other => ?_)
      (symbols_of_layout_fault taken stopped)
    obtain ⟨line', at_j⟩ := other.exists_line
    exact least j earlier ⟨line', fault⟩ ⟨at_j, other⟩
  · rw [ran]
    have clean := not_layoutFault_of_addLines whole
    have faults := Emission.encodingFaults (Layout.describes_of_addLines whole) clean
    obtain ⟨i, line, before, at_i', taken, stopped, ⟨at_i, bad⟩, least⟩ :=
      faults.exists_first_bad_of_some second
    have knows := knows_of_encoding_fault whole at_i' taken stopped
    rw [knows.resolver_eq]
    refine .encodingInstructions clean at_i bad (fun j earlier fault other => ?_)
      (symbols_perm_symbolsIn clean knows.lookup)
    obtain ⟨line', -, at_j, -⟩ := other.exists_operation
    exact least j earlier ⟨line', fault⟩ ⟨at_j, other⟩
  · have assembled := assembleLines_of_passes whole second
    obtain ⟨noLayoutFault, noEncodingFault⟩ := not_fault_of_assembleLines_ok assembled
    have d := Emission.describes_of_scan (Layout.describes_of_addLines whole)
      (List.prefix_refl lines) second
    rw [ran, d.knows.resolver_eq]
    exact .done noLayoutFault noEncodingFault
      (symbols_perm_programSymbols noLayoutFault d.knows.lookup) rfl

/-! ## Consequences -/

theorem Leaves.phase_done_iff {lines : List SourceLine} {a : Assembler}
    {outcome : Except LineFault Program} (h : Leaves lines a outcome) :
    a.phase = .done ↔ ∃ p, outcome = .ok p := by
  cases h <;> simp

/-- If a run stops at a line whose operand is a variable, the variable is bound to its address, even
if this address is what stopped the run. -/
theorem Leaves.lookup?_of_variable {lines : List SourceLine} {a : Assembler} {f : LineFault}
    (h : Leaves lines a (.error f)) {name : Text} {k : Nat}
    (operand : f.line.operation? = some (.address (.symbol name)))
    (used : (variableNames lines).idxOf? name = some k) :
    a.table.lookup? name = some ⟨(16 + k : Nat), .memory⟩ := by
  cases h with
  | resolvingLabels at_i bad =>
    rw [bad.operation?_eq_none at_i] at operand
    cases operand
  | @encodingInstructions i _ table _ at_i _ _ symbols =>
    have bound : bindingIn? lines (lines.take (i + 1)) name =
        some ⟨(16 + k : Nat), .memory⟩ := by
      obtain ⟨b, hb⟩ := exists_bindingIn?_of_operand operand lines (lines.take i)
      -- the binding is that of the whole program, which numbers the variables
      have whole := binding?_of_part (Emission.take_concat_part at_i) hb
      rw [binding?, bindingIn?_of_idxOf? used] at whole
      rw [← Emission.take_concat at_i, hb, ← whole]
      rfl
    have listed : (⟨name, (16 + k : Nat), .memory⟩ : Symbol) ∈ table.symbols :=
      symbols.mem_iff.2 (mem_symbolsIn_of_bindingIn? bound)
    exact SymbolTable.mem_symbols_iff.1 listed

/-! ## Any number of runs -/

/-- Each of any number of runs on one assembler returns what a fresh assembler returns for the same
lines, and leaves behind what its own lines account for: it is done exactly if it has succeeded, and
otherwise its phase and its table are those of the pass and the line at which it stopped. -/
theorem assembleAll_accounts_for_table (a : Assembler) (calls : List (List SourceLine)) :
    List.Forall₂ (fun lines (call : Assembler × Except LineFault Program) =>
        call.2 = (Assembler.fresh.assemble lines).2 ∧
        (call.1.phase = .done ↔ ∃ p, call.2 = .ok p) ∧
        Leaves lines call.1 call.2 ∧
        ∀ f name k, call.2 = .error f → f.line.operation? = some (.address (.symbol name)) →
          (variableNames lines).idxOf? name = some k →
          call.1.table.lookup? name = some ⟨(16 + k : Nat), .memory⟩)
      calls (a.assembleAll calls) := by
  induction calls generalizing a with
  | nil => exact .nil
  | cons lines rest ih =>
    have leaves := a.leaves_assemble lines
    refine .cons ⟨rfl, leaves.phase_done_iff, leaves, ?_⟩ (ih (a.assemble lines).1)
    intro f name k failed operand used
    rw [failed] at leaves
    exact leaves.lookup?_of_variable operand used

/-- A label that no instruction follows. -/
def trailingLabel : List SourceLine :=
  [⟨1, Text.ascii "@i"⟩, ⟨2, Text.ascii "@END"⟩, ⟨3, Text.ascii "@j"⟩, ⟨4, Text.ascii "(END)"⟩]

example : (Assembler.fresh.assembleAll [forwardLabel, takenLabel, trailingLabel]).map
    (fun call => (call.1.phase, call.1.table.size)) =
      [(.done, 25), (.resolvingLabels, 23), (.encodingInstructions, 25)] := by
  decide

end HackMachine
