import HackMachine.Proofs.Assembly.Meaning
import HackMachine.Proofs.Scan
import HackMachine.Proofs.Symbol.Table

/-!
# The first pass finds the labels

After some lines have been read without a fault, the first pass has counted the instruction lines
among them, and its table binds the predefined names and the labels among them, each to the number
of instruction lines before it (`Describes`).  One line keeps this (`Describes.addLine`), so it holds
after all of them (`describes_of_addLines`).

The faults of the pass are those of `LayoutFault`: a line that is not a statement, and a label that
is predefined or has been defined on an earlier line.  The pass reports the first
(`layoutFaults`).
-/

namespace HackMachine

open Meaning

/-- What is wrong with line `i` before any operand is looked at: it is not a statement, or it is a
label whose name is predefined or is the label of an earlier line. -/
inductive LayoutFault (lines : List SourceLine) (i : Nat) : Fault → Prop where
  | unreadable {line : SourceLine} {fault : Statement.Fault} (at_i : lines[i]? = some line)
      (parsed : Statement.parse line.text = .error fault) : LayoutFault lines i (.ofStatement fault)
  | predefined {line : SourceLine} {name : Text} {address : Nat} (at_i : lines[i]? = some line)
      (label : line.label? = some name) (taken : predefinedAddress? name = some address) :
      LayoutFault lines i (.duplicateLabel name ⟨address, .predefined⟩)
  | repeated {line earlier : SourceLine} {name : Text} {j : Nat} (at_i : lines[i]? = some line)
      (label : line.label? = some name) (before : j < i) (at_j : lines[j]? = some earlier)
      (taken : earlier.label? = some name) :
      LayoutFault lines i (.duplicateLabel name ⟨(operations (lines.take j)).length, .label⟩)

theorem LayoutFault.exists_line {lines : List SourceLine} {i : Nat} {fault : Fault}
    (h : LayoutFault lines i fault) : ∃ line, lines[i]? = some line := by
  cases h with
  | unreadable at_i | predefined at_i | repeated at_i => exact ⟨_, at_i⟩

/-- An instruction line has no fault that the first pass finds. -/
theorem LayoutFault.operation?_eq_none {lines : List SourceLine} {i : Nat} {fault : Fault}
    {line : SourceLine} (h : LayoutFault lines i fault) (at_i : lines[i]? = some line) :
    line.operation? = none := by
  cases h with
  | unreadable at_i' parsed =>
    obtain rfl := Option.some.inj (at_i.symm.trans at_i')
    rw [SourceLine.operation?, parsed]
  | predefined at_i' label | repeated at_i' label =>
    obtain rfl := Option.some.inj (at_i.symm.trans at_i')
    rw [SourceLine.operation?, SourceLine.label?_eq_some_iff.1 label]

namespace Layout

/-! ## One line -/

theorem addLines_eq_scan (layout : Layout) (lines : List SourceLine) :
    layout.addLines lines = scan addLine layout lines := by
  induction lines generalizing layout with
  | nil => rfl
  | cons line lines ih =>
    rw [addLines, scan]
    rcases layout.addLine line with ⟨next, _ | fault⟩
    · exact ih next
    · rfl

/-- A line that is taken is an instruction, which is counted, or a new label, which is bound. -/
theorem addLine_eq_none {layout next : Layout} {line : SourceLine}
    (h : layout.addLine line = (next, none)) :
    (∃ op, line.operation? = some op ∧ next = { layout with count := layout.count + 1 }) ∨
      ∃ name, line.label? = some name ∧ layout.table.lookup? name = none ∧
        next = { layout with table := layout.table.bind name ⟨layout.count, .label⟩ } := by
  unfold addLine at h
  split at h
  · cases h
  · next op parsed =>
    exact .inl ⟨op, SourceLine.operation?_eq_some_iff.2 parsed, (Prod.mk.inj h).1.symm⟩
  · next name parsed =>
    refine .inr ⟨name, SourceLine.label?_eq_some_iff.2 parsed, ?_⟩
    rw [SymbolTable.define] at h
    cases hl : layout.table.lookup? name with
    | some earlier =>
      rw [hl] at h
      cases h
    | none =>
      rw [hl] at h
      exact ⟨rfl, (Prod.mk.inj h).1.symm⟩

/-- A line that fails is not a statement, or is a label that is bound already.  The layout stays as
it was. -/
theorem addLine_eq_some {layout next : Layout} {line : SourceLine} {fault : LineFault}
    (h : layout.addLine line = (next, some fault)) :
    next = layout ∧ fault.line = line ∧
      ((∃ why, Statement.parse line.text = .error why ∧ fault.fault = .ofStatement why) ∨
        ∃ name earlier, line.label? = some name ∧ layout.table.lookup? name = some earlier ∧
          fault.fault = .duplicateLabel name earlier) := by
  unfold addLine at h
  split at h
  · next why parsed =>
    obtain ⟨rfl, rfl⟩ : layout = next ∧ _ = fault := by simpa using h
    exact ⟨rfl, rfl, .inl ⟨why, parsed, rfl⟩⟩
  · cases h
  · next name parsed =>
    rw [SymbolTable.define] at h
    cases hl : layout.table.lookup? name with
    | some earlier =>
      rw [hl] at h
      obtain ⟨rfl, rfl⟩ : layout = next ∧ _ = fault := by simpa using h
      exact ⟨rfl, rfl, .inr ⟨name, earlier, SourceLine.label?_eq_some_iff.2 parsed, hl, rfl⟩⟩
    | none =>
      rw [hl] at h
      cases h

/-! ## All lines -/

/-- What the first pass knows after some lines: the number of instruction lines among them, and the
bindings of the predefined names and of the labels among them. -/
structure Describes (done : List SourceLine) (layout : Layout) : Prop where
  count : layout.count = (operations done).length
  table : ∀ name, layout.table.lookup? name = bindingIn? done [] name

theorem describes_start : Describes [] start where
  count := rfl
  table name := by
    rw [start, SymbolTable.lookup?_initial, bindingIn?_nil]
    cases predefinedAddress? name <;> rfl

/-- One line keeps the description. -/
theorem Describes.addLine {done : List SourceLine} {layout next : Layout} {line : SourceLine}
    (d : Describes done layout) (h : layout.addLine line = (next, none)) :
    Describes (done ++ [line]) next := by
  rcases addLine_eq_none h with ⟨op, hop, rfl⟩ | ⟨name, hname, new, rfl⟩
  · have noLabel : line.label? = none := by
      rw [SourceLine.label?, SourceLine.operation?_eq_some_iff.1 hop]
    refine ⟨?_, fun other => ?_⟩
    · rw [operations_append, operations_singleton, hop, List.length_append, d.count]
      rfl
    · rw [bindingIn?_nil_concat_of_none noLabel]
      exact d.table other
  · have noOperation : line.operation? = none := by
      rw [SourceLine.operation?, SourceLine.label?_eq_some_iff.1 hname]
    rw [d.table] at new
    refine ⟨?_, fun other => ?_⟩
    · rw [operations_append, operations_singleton, noOperation, List.length_append, d.count]
      rfl
    · rw [bindingIn?_nil_concat_of_new hname new, SymbolTable.lookup?_bind, d.count, d.table]

/-- A first pass without a fault has counted the instruction lines and found the labels of the
program. -/
theorem describes_of_addLines {lines : List SourceLine} {layout : Layout}
    (h : start.addLines lines = (layout, none)) : Describes lines layout := by
  rw [addLines_eq_scan] at h
  exact scan_invariant Describes describes_start (fun _ _ _ _ d hline => d.addLine hline) h

/-! ## Faults -/

/-- A label that is bound when its line is reached is predefined or has been defined before. -/
theorem layoutFault_of_bound {lines : List SourceLine} {i : Nat} {line : SourceLine} {name : Text}
    {earlier : Binding} (at_i : lines[i]? = some line) (label : line.label? = some name)
    (bound : bindingIn? (lines.take i) [] name = some earlier) :
    LayoutFault lines i (.duplicateLabel name earlier) := by
  rw [bindingIn?_nil] at bound
  cases hp : predefinedAddress? name with
  | some address =>
    rw [hp] at bound
    obtain rfl := Option.some.inj bound
    exact .predefined at_i label hp
  | none =>
    rw [hp] at bound
    obtain ⟨address, hlabel, rfl⟩ := Option.map_eq_some_iff.1 bound
    obtain ⟨j, first, at_j, defines, -, rfl⟩ := labelAddress?_eq_some_iff.1 hlabel
    have before : j < i := by
      have := (List.getElem?_eq_some_iff.1 at_j).1
      rw [List.length_take] at this
      omega
    rw [List.getElem?_take_of_lt before] at at_j
    rw [List.take_take, Nat.min_eq_left (Nat.le_of_lt before)]
    exact .repeated at_i label before at_j defines

/-- A line that is taken has no fault. -/
theorem not_layoutFault_of_addLine {lines : List SourceLine} {i : Nat} {line : SourceLine}
    {layout next : Layout} (at_i : lines[i]? = some line) (d : Describes (lines.take i) layout)
    (h : layout.addLine line = (next, none)) (fault : Fault) : ¬ LayoutFault lines i fault := by
  intro bad
  -- a label that is taken is not bound by the lines before it
  have new : ∀ name, line.label? = some name → bindingIn? (lines.take i) [] name = none := by
    intro name hname
    rcases addLine_eq_none h with ⟨op, hop, -⟩ | ⟨name', hname', new, -⟩
    · rw [SourceLine.label?, SourceLine.operation?_eq_some_iff.1 hop] at hname
      cases hname
    · obtain rfl : name' = name := Option.some.inj (hname'.symm.trans hname)
      rw [← d.table, new]
  cases bad with
  | unreadable at_i' parsed =>
    obtain rfl := Option.some.inj (at_i.symm.trans at_i')
    rcases addLine_eq_none h with ⟨op, hop, -⟩ | ⟨name, hname, -, -⟩
    · rw [SourceLine.operation?_eq_some_iff.1 hop] at parsed
      cases parsed
    · rw [SourceLine.label?_eq_some_iff.1 hname] at parsed
      cases parsed
  | predefined at_i' label taken =>
    obtain rfl := Option.some.inj (at_i.symm.trans at_i')
    have := new _ label
    rw [bindingIn?_of_predefined taken] at this
    cases this
  | @repeated _ earlier name j at_i' label before at_j taken =>
    obtain rfl := Option.some.inj (at_i.symm.trans at_i')
    have isVar := (bindingIn?_eq_none_iff.1 (new _ label)).1
    have defined : (labelAddress? (lines.take i) name).isSome :=
      labelAddress?_isSome_iff.2 ⟨j, earlier, by rw [List.getElem?_take_of_lt before, at_j], taken⟩
    simp only [isVariable, Bool.and_eq_true, Option.isNone_iff_eq_none] at isVar
    rw [isVar.2] at defined
    cases defined

/-- The faults of the first pass, place by place. -/
theorem layoutFaults (lines : List SourceLine) :
    ScanFaults Layout.addLine start lines Describes
      fun i fault => lines[i]? = some fault.line ∧ LayoutFault lines i fault.fault where
  start := describes_start
  keep _ _ _ _ d h := d.addLine h
  inside i fault h := ⟨fault.line, h.1⟩
  sound i line layout next at_i d h fault bad := by
    exact not_layoutFault_of_addLine at_i d h fault.fault bad.2
  complete i line layout next fault at_i d h := by
    obtain ⟨-, rfl, ⟨why, parsed, isFault⟩ | ⟨name, earlier, label, bound, isFault⟩⟩ :=
      addLine_eq_some h
    · exact ⟨at_i, isFault ▸ .unreadable at_i parsed⟩
    · rw [d.table] at bound
      exact ⟨at_i, isFault ▸ layoutFault_of_bound at_i label bound⟩

end Layout

/-! ## Programs without such a fault -/

/-- After a first pass without a fault no line has one. -/
theorem not_layoutFault_of_addLines {lines : List SourceLine} {layout : Layout}
    (h : Layout.start.addLines lines = (layout, none)) (i : Nat) (fault : Fault) :
    ¬ LayoutFault lines i fault := by
  intro bad
  rw [Layout.addLines_eq_scan] at h
  obtain ⟨line, at_i⟩ := bad.exists_line
  exact (Layout.layoutFaults lines).not_bad_of_none h i ⟨line, fault⟩ ⟨at_i, bad⟩

/-- Without a fault in the first pass, every line can be read. -/
theorem parse_ne_error_of_clean {lines : List SourceLine}
    (clean : ∀ i fault, ¬ LayoutFault lines i fault) {i : Nat} {line : SourceLine}
    (at_i : lines[i]? = some line) (why : Statement.Fault) :
    Statement.parse line.text ≠ .error why :=
  fun parsed => clean i _ (.unreadable at_i parsed)

/-- Without a fault in the first pass, every label line gives its label's address. -/
theorem labelAddress?_of_clean {lines : List SourceLine}
    (clean : ∀ i fault, ¬ LayoutFault lines i fault) {j : Nat} {line : SourceLine} {name : Text}
    (at_j : lines[j]? = some line) (label : line.label? = some name) :
    predefinedAddress? name = none ∧
      labelAddress? lines name = some (operations (lines.take j)).length := by
  constructor
  · cases hp : predefinedAddress? name with
    | none => rfl
    | some address => exact absurd (.predefined at_j label hp) (clean j _)
  · refine labelAddress?_eq_some_iff.2 ⟨j, line, at_j, label, ?_, rfl⟩
    intro i before earlier at_i taken
    exact clean j _ (.repeated at_j label before at_i taken)

end HackMachine
