import HackMachine.Assembly.Assembler
import Mathlib.Data.List.Forall2
import Mathlib.Data.List.Induction

/-!
# What a program means

The assembler works in two passes over a table that changes as it goes.  This file says what a list
of lines means without any table or order of work:

* a label stands for the number of instruction lines before its line, wherever that line is;
* the variables are the operands that are neither predefined nor a label anywhere in the program,
  and are numbered by first use from 16 on;
* an instruction line denotes one word, which depends on nothing but these addresses.

`variablesIn` and `bindingIn?` are the same for a part of the program: the names are told apart by
the whole program, but only the operands of the part are taken into account.  The passes of the
assembler are described with them line by line, and the program itself is the last part.
-/

namespace HackMachine

namespace SourceLine

/-- The operation of a line that is an instruction. -/
def operation? (line : SourceLine) : Option Operation :=
  match Statement.parse line.text with
  | .ok (.operation op) => some op
  | _ => none

/-- The name that a line defines, if the line is a label. -/
def label? (line : SourceLine) : Option Text :=
  match Statement.parse line.text with
  | .ok (.label name) => some name
  | _ => none

theorem operation?_eq_some_iff {line : SourceLine} {op : Operation} :
    line.operation? = some op ↔ Statement.parse line.text = .ok (.operation op) := by
  unfold operation?
  split
  · next parsed => simp [parsed]
  · next other => exact ⟨nofun, fun parsed => absurd parsed (other op)⟩

theorem label?_eq_some_iff {line : SourceLine} {name : Text} :
    line.label? = some name ↔ Statement.parse line.text = .ok (.label name) := by
  unfold label?
  split
  · next parsed => simp [parsed]
  · next other => exact ⟨nofun, fun parsed => absurd parsed (other name)⟩

end SourceLine

/-- The name that an operation uses as an operand, if it uses one. -/
def Operation.name? : Operation → Option Text
  | .address (.symbol name) => some name
  | _ => none

namespace Meaning

/-- The operations of the instruction lines, in order. -/
def operations (lines : List SourceLine) : List Operation := lines.filterMap (·.operation?)

/-- The instruction lines with their operations. -/
def located (lines : List SourceLine) : List Located :=
  lines.filterMap fun line => line.operation?.map fun op => ⟨line, op⟩

/-- The address of a label: the number of instruction lines before the line that defines it. -/
def labelAddress? (lines : List SourceLine) (name : Text) : Option Nat :=
  (lines.findIdx? (·.label? == some name)).map fun i => (operations (lines.take i)).length

/-- Whether an operand is a variable of the program. -/
def isVariable (lines : List SourceLine) (name : Text) : Bool :=
  (predefinedAddress? name).isNone && (labelAddress? lines name).isNone

/-- The variables that a part of the program uses, by first use. -/
def variablesIn (lines part : List SourceLine) : List Text :=
  (((operations part).filterMap (·.name?)).filter (isVariable lines)).eraseDups

/-- The variables of the program, by first use. -/
def variableNames (lines : List SourceLine) : List Text := variablesIn lines lines

/-- What a name is bound to when a part of the program has been seen. -/
def bindingIn? (lines part : List SourceLine) (name : Text) : Option Binding :=
  match predefinedAddress? name, labelAddress? lines name with
  | some address, _ => some ⟨address, .predefined⟩
  | none, some address => some ⟨address, .label⟩
  | none, none =>
    ((variablesIn lines part).idxOf? name).map fun i => ⟨(firstVariable + i : Nat), .memory⟩

/-- What the program binds a name to. -/
def binding? (lines : List SourceLine) (name : Text) : Option Binding :=
  bindingIn? lines lines name

/-- The instruction of an operation: a literal loads itself, a name the address it is bound to, and
the fields of a computation are the instruction they spell. -/
def Means (lines : List SourceLine) : Operation → Instruction → Prop
  | .address (.literal value), .load address => address.val = value
  | .address (.symbol name), .load address => ∃ kind, binding? lines name = some ⟨address.val, kind⟩
  | .compute dest comp jump, i => Instruction.ofFields dest comp jump = .ok i
  | _, _ => False

/-- The word of an operation: a literal denotes itself, a name the address it is bound to, and the
fields of a computation the word they encode to. -/
def Denotes (lines : List SourceLine) : Operation → Word → Prop
  | .address (.literal value), w => w.toNat = value
  | .address (.symbol name), w => ∃ kind, binding? lines name = some ⟨w.toNat, kind⟩
  | .compute dest comp jump, w => Emission.computeWord dest comp jump = .ok w

/-- The word of an operation encodes its instruction. -/
theorem denotes_of_means {lines : List SourceLine} {op : Operation} {i : Instruction}
    (h : Means lines op i) : Denotes lines op i.encode := by
  cases op with
  | address operand =>
    cases i with
    | load address =>
      have loads := Format.toNat_addressWord address
      cases operand with
      | literal value => exact loads.trans h
      | symbol name =>
        obtain ⟨kind, bound⟩ := h
        exact ⟨kind, bound.trans (by rw [Instruction.encode, loads])⟩
    | compute => cases operand <;> exact h.elim
  | compute dest comp jump =>
    have fields : Instruction.ofFields dest comp jump = .ok i := h
    rw [Denotes, Emission.computeWord, fields]

/-! ## Operations -/

@[simp] theorem operations_append (lines more : List SourceLine) :
    operations (lines ++ more) = operations lines ++ operations more :=
  List.filterMap_append

theorem operations_singleton (line : SourceLine) :
    operations [line] = line.operation?.toList := by
  cases h : line.operation? <;> simp [operations, h]

theorem located_append (lines more : List SourceLine) :
    located (lines ++ more) = located lines ++ located more :=
  List.filterMap_append

theorem map_op_located (lines : List SourceLine) :
    (located lines).map (·.op) = operations lines := by
  rw [operations, located, List.map_filterMap]
  congr 1
  funext line
  cases line.operation? <;> rfl

theorem length_located (lines : List SourceLine) :
    (located lines).length = (operations lines).length := by
  rw [← map_op_located, List.length_map]

/-! ## Labels -/

/-- The lines that follow define a label, unless the name has been defined before. -/
theorem labelAddress?_append (lines more : List SourceLine) (name : Text) :
    labelAddress? (lines ++ more) name =
      match labelAddress? lines name with
      | some address => some address
      | none => (labelAddress? more name).map ((operations lines).length + ·) := by
  unfold labelAddress?
  rw [List.findIdx?_append]
  cases h : lines.findIdx? (·.label? == some name) with
  | some i =>
    have hi : i < lines.length := (List.findIdx?_eq_some_iff_getElem.1 h).1
    simp [List.take_append_of_le_length (Nat.le_of_lt hi)]
  | none =>
    cases more.findIdx? (·.label? == some name) with
    | none => rfl
    | some i => simp [Nat.add_comm i, List.take_length_add_append]

/-- One more line defines its own label, unless the name has been defined before. -/
theorem labelAddress?_concat (lines : List SourceLine) (line : SourceLine) (name : Text) :
    labelAddress? (lines ++ [line]) name =
      match labelAddress? lines name with
      | some address => some address
      | none => if line.label? = some name then some (operations lines).length else none := by
  rw [labelAddress?_append]
  cases labelAddress? lines name with
  | some address => rfl
  | none => by_cases defined : line.label? = some name <;> simp [labelAddress?, operations, defined]

/-- A label has the address of the first line that defines it. -/
theorem labelAddress?_eq_some_iff {lines : List SourceLine} {name : Text} {address : Nat} :
    labelAddress? lines name = some address ↔
      ∃ j line, lines[j]? = some line ∧ line.label? = some name ∧
        (∀ k < j, ∀ earlier, lines[k]? = some earlier → earlier.label? ≠ some name) ∧
        (operations (lines.take j)).length = address := by
  rw [labelAddress?, Option.map_eq_some_iff]
  constructor
  · rintro ⟨j, hj, rfl⟩
    obtain ⟨inside, defines, first⟩ := List.findIdx?_eq_some_iff_getElem.1 hj
    refine ⟨j, lines[j], List.getElem?_eq_getElem inside, by simpa using defines, ?_, rfl⟩
    intro k hk earlier hearlier
    obtain ⟨hk', rfl⟩ := List.getElem?_eq_some_iff.1 hearlier
    simpa using first k hk
  · rintro ⟨j, line, hline, defines, first, rfl⟩
    obtain ⟨inside, rfl⟩ := List.getElem?_eq_some_iff.1 hline
    refine ⟨j, List.findIdx?_eq_some_iff_getElem.2 ⟨inside, by simpa using defines, ?_⟩, rfl⟩
    intro k hk
    have hk' : k < lines.length := by omega
    simpa using first k hk lines[k] (List.getElem?_eq_getElem hk')

/-- A name is a label exactly if some line defines it. -/
theorem labelAddress?_isSome_iff {lines : List SourceLine} {name : Text} :
    (labelAddress? lines name).isSome ↔
      ∃ (j : Nat) (line : SourceLine), lines[j]? = some line ∧ line.label? = some name := by
  rw [labelAddress?, Option.isSome_map, List.findIdx?_isSome, List.any_eq_true]
  constructor
  · rintro ⟨line, hmem, defines⟩
    obtain ⟨j, hj⟩ := List.mem_iff_getElem?.1 hmem
    exact ⟨j, line, hj, by simpa using defines⟩
  · rintro ⟨j, line, hj, defines⟩
    exact ⟨line, List.mem_of_getElem? hj, by simpa using defines⟩

/-! ## Variables -/

/-- The variables of a part that is continued come first, in the same order. -/
theorem variablesIn_part (lines part more : List SourceLine) :
    variablesIn lines part <+: variablesIn lines (part ++ more) := by
  unfold variablesIn
  rw [operations_append, List.filterMap_append, List.filter_append, List.eraseDups_append]
  exact List.prefix_append _ _

/-- A line without an operand that is a name uses no variable. -/
theorem variablesIn_concat_of_none {line : SourceLine}
    (h : line.operation?.bind (·.name?) = none) (lines part : List SourceLine) :
    variablesIn lines (part ++ [line]) = variablesIn lines part := by
  have nothing : (operations [line]).filterMap (·.name?) = [] := by
    rw [operations_singleton]
    cases hop : line.operation? with
    | none => rfl
    | some op =>
      rw [hop] at h
      simpa using h
  rw [variablesIn, operations_append, List.filterMap_append, nothing, List.append_nil, variablesIn]

/-- A repeated entry at the end is dropped, a new one stays. -/
theorem eraseDups_concat {α : Type} [BEq α] [LawfulBEq α] (l : List α) (a : α) :
    (l ++ [a]).eraseDups = if a ∈ l then l.eraseDups else l.eraseDups ++ [a] := by
  rw [List.eraseDups_append]
  by_cases h : a ∈ l
  · simp [List.removeAll, h]
  · simp [List.removeAll, h, List.eraseDups_cons]

/-- A line with a name as its operand uses a new variable if the name is one and has not been used
before. -/
theorem variablesIn_concat_of_some {line : SourceLine} {name : Text}
    (h : line.operation? = some (.address (.symbol name))) (lines part : List SourceLine) :
    variablesIn lines (part ++ [line]) =
      if isVariable lines name ∧ name ∉ variablesIn lines part then
        variablesIn lines part ++ [name]
      else variablesIn lines part := by
  have one : (operations [line]).filterMap (·.name?) = [name] := by
    rw [operations_singleton, h]
    rfl
  rw [variablesIn, operations_append, List.filterMap_append, one, List.filter_append, variablesIn]
  by_cases isVar : isVariable lines name = true
  · rw [List.filter_cons_of_pos isVar, List.filter_nil, eraseDups_concat]
    simp only [isVar, List.mem_eraseDups, true_and, ite_not]
  · simp [isVar]

/-- Only variables are listed as such. -/
theorem isVariable_of_mem_variablesIn {lines part : List SourceLine} {name : Text}
    (h : name ∈ variablesIn lines part) : isVariable lines name :=
  (List.mem_filter.1 (List.mem_eraseDups.1 h)).2

/-! ## Bindings -/

theorem bindingIn?_of_predefined {name : Text} {address : Nat}
    (h : predefinedAddress? name = some address) (lines part : List SourceLine) :
    bindingIn? lines part name = some ⟨address, .predefined⟩ := by
  rw [bindingIn?, h]

theorem bindingIn?_of_label {lines : List SourceLine} {name : Text} {address : Nat}
    (new : predefinedAddress? name = none) (h : labelAddress? lines name = some address)
    (part : List SourceLine) : bindingIn? lines part name = some ⟨address, .label⟩ := by
  rw [bindingIn?, new, h]

theorem bindingIn?_of_isVariable {lines : List SourceLine} {name : Text}
    (h : isVariable lines name) (part : List SourceLine) :
    bindingIn? lines part name =
      ((variablesIn lines part).idxOf? name).map
        fun i => ⟨(firstVariable + i : Nat), .memory⟩ := by
  simp only [isVariable, Bool.and_eq_true, Option.isNone_iff_eq_none] at h
  rw [bindingIn?, h.1, h.2]

/-- A bound name is predefined, a label, or a variable that has been used. -/
theorem bindingIn?_cases {lines part : List SourceLine} {name : Text} {b : Binding}
    (h : bindingIn? lines part name = some b) :
    (∃ address : Nat, predefinedAddress? name = some address ∧ b = ⟨address, .predefined⟩) ∨
      (∃ address : Nat, predefinedAddress? name = none ∧
        labelAddress? lines name = some address ∧ b = ⟨address, .label⟩) ∨
      ∃ k : Nat, isVariable lines name ∧ (variablesIn lines part).idxOf? name = some k ∧
        b = ⟨(firstVariable + k : Nat), .memory⟩ := by
  cases hp : predefinedAddress? name with
  | some address =>
    rw [bindingIn?_of_predefined hp] at h
    exact .inl ⟨address, rfl, (Option.some.inj h).symm⟩
  | none =>
    cases hl : labelAddress? lines name with
    | some address =>
      rw [bindingIn?_of_label hp hl] at h
      exact .inr (.inl ⟨address, rfl, rfl, (Option.some.inj h).symm⟩)
    | none =>
      have isVar : isVariable lines name := by simp [isVariable, hp, hl]
      rw [bindingIn?_of_isVariable isVar] at h
      obtain ⟨k, hk, rfl⟩ := Option.map_eq_some_iff.1 h
      exact .inr (.inr ⟨k, isVar, hk, rfl⟩)

/-- A name without a binding is a variable that has not been used. -/
theorem bindingIn?_eq_none_iff {lines part : List SourceLine} {name : Text} :
    bindingIn? lines part name = none ↔
      isVariable lines name ∧ name ∉ variablesIn lines part := by
  constructor
  · intro h
    have isVar : isVariable lines name := by
      cases hp : predefinedAddress? name with
      | some address =>
        rw [bindingIn?_of_predefined hp] at h
        cases h
      | none =>
        cases hl : labelAddress? lines name with
        | some address =>
          rw [bindingIn?_of_label hp hl] at h
          cases h
        | none => simp [isVariable, hp, hl]
    rw [bindingIn?_of_isVariable isVar, Option.map_eq_none_iff, List.idxOf?_eq_none_iff] at h
    exact ⟨isVar, h⟩
  · rintro ⟨isVar, unused⟩
    rw [bindingIn?_of_isVariable isVar, Option.map_eq_none_iff, List.idxOf?_eq_none_iff]
    exact unused

/-- A variable is bound by its place among the variables. -/
theorem bindingIn?_of_idxOf? {lines part : List SourceLine} {name : Text} {k : Nat}
    (h : (variablesIn lines part).idxOf? name = some k) :
    bindingIn? lines part name = some ⟨(firstVariable + k : Nat), .memory⟩ := by
  obtain ⟨hk, at_k, -⟩ := List.idxOf?_eq_some_iff.1 h
  have isVar : isVariable lines name :=
    isVariable_of_mem_variablesIn (at_k ▸ List.getElem_mem hk)
  rw [bindingIn?_of_isVariable isVar, h]
  rfl

/-- The place of an entry does not change when more entries follow. -/
theorem idxOf?_append_of_some {l : List Text} {a : Text} {i : Nat} (h : l.idxOf? a = some i)
    (more : List Text) : (l ++ more).idxOf? a = some i := by
  rw [List.idxOf?, List.findIdx?_append, ← List.idxOf?, h]
  rfl

/-- A binding stays when more of the program is seen. -/
theorem bindingIn?_append_of_some {lines part : List SourceLine} {name : Text} {b : Binding}
    (h : bindingIn? lines part name = some b) (more : List SourceLine) :
    bindingIn? lines (part ++ more) name = some b := by
  rcases bindingIn?_cases h with ⟨a, hp, rfl⟩ | ⟨a, hp, hl, rfl⟩ | ⟨k, -, hk, rfl⟩
  · exact bindingIn?_of_predefined hp lines _
  · exact bindingIn?_of_label hp hl _
  · obtain ⟨rest, hrest⟩ := variablesIn_part lines part more
    apply bindingIn?_of_idxOf?
    rw [← hrest, idxOf?_append_of_some hk]

/-- A binding in a part of the program that comes first is a binding of the program. -/
theorem binding?_of_part {lines part : List SourceLine} {name : Text} {b : Binding}
    (first : part <+: lines) (h : bindingIn? lines part name = some b) :
    binding? lines name = some b := by
  obtain ⟨more, hmore⟩ := first
  have := bindingIn?_append_of_some h more
  rwa [hmore] at this

/-- Bindings depend on a part only through the variables it uses. -/
theorem bindingIn?_congr {lines part part' : List SourceLine}
    (h : variablesIn lines part = variablesIn lines part') (name : Text) :
    bindingIn? lines part name = bindingIn? lines part' name := by
  simp only [bindingIn?, h]

/-- An operand that is bound already is no new variable. -/
theorem variablesIn_concat_of_bound {lines part : List SourceLine} {line : SourceLine}
    {name : Text} (h : line.operation? = some (.address (.symbol name)))
    (bound : bindingIn? lines part name ≠ none) :
    variablesIn lines (part ++ [line]) = variablesIn lines part := by
  rw [variablesIn_concat_of_some h, if_neg]
  intro unused
  exact bound (bindingIn?_eq_none_iff.2 unused)

/-- An operand that is not bound yet is the next variable. -/
theorem variablesIn_concat_of_new {lines part : List SourceLine} {line : SourceLine} {name : Text}
    (h : line.operation? = some (.address (.symbol name)))
    (new : bindingIn? lines part name = none) :
    variablesIn lines (part ++ [line]) = variablesIn lines part ++ [name] := by
  rw [variablesIn_concat_of_some h, if_pos (bindingIn?_eq_none_iff.1 new)]

/-- The next variable gets the next address, and no other binding changes. -/
theorem bindingIn?_concat_of_new {lines part : List SourceLine} {line : SourceLine} {name : Text}
    (h : line.operation? = some (.address (.symbol name)))
    (new : bindingIn? lines part name = none) (other : Text) :
    bindingIn? lines (part ++ [line]) other =
      if name = other then
        some ⟨(firstVariable + (variablesIn lines part).length : Nat), .memory⟩
      else bindingIn? lines part other := by
  have unused := bindingIn?_eq_none_iff.1 new
  have grown := variablesIn_concat_of_new h new
  by_cases same : name = other
  · subst same
    rw [if_pos rfl, bindingIn?_of_isVariable unused.1, grown, List.idxOf?, List.findIdx?_append,
      ← List.idxOf?, List.idxOf?_eq_none_iff.2 unused.2]
    simp
  · rw [if_neg same]
    simp only [bindingIn?, grown]
    have apart : (name == other) = false := beq_eq_false_iff_ne.2 same
    have place : (variablesIn lines part ++ [name]).idxOf? other =
        (variablesIn lines part).idxOf? other := by
      rw [List.idxOf?, List.findIdx?_append, ← List.idxOf?]
      simp [apart]
    rw [place]

/-- An operand is bound once its line has been seen. -/
theorem exists_bindingIn?_of_operand {line : SourceLine} {name : Text}
    (h : line.operation? = some (.address (.symbol name))) (lines part : List SourceLine) :
    ∃ b, bindingIn? lines (part ++ [line]) name = some b := by
  cases hb : bindingIn? lines part name with
  | some b => exact ⟨b, bindingIn?_append_of_some hb [line]⟩
  | none => exact ⟨_, by rw [bindingIn?_concat_of_new h hb, if_pos rfl]⟩

/-- Before any operand is seen, only predefined names and labels are bound. -/
theorem bindingIn?_nil (lines : List SourceLine) (name : Text) :
    bindingIn? lines [] name =
      match predefinedAddress? name with
      | some address => some ⟨address, .predefined⟩
      | none => (labelAddress? lines name).map fun address : Nat => ⟨address, .label⟩ := by
  have unused : variablesIn lines [] = [] := rfl
  rw [bindingIn?, unused]
  cases predefinedAddress? name <;> cases labelAddress? lines name <;> rfl

/-- A line that defines no label binds none. -/
theorem bindingIn?_nil_concat_of_none {line : SourceLine} (h : line.label? = none)
    (lines : List SourceLine) (name : Text) :
    bindingIn? (lines ++ [line]) [] name = bindingIn? lines [] name := by
  rw [bindingIn?_nil, bindingIn?_nil, labelAddress?_concat, h]
  cases labelAddress? lines name <;> rfl

/-- A line that defines a new label binds it to the number of instruction lines before. -/
theorem bindingIn?_nil_concat_of_new {lines : List SourceLine} {line : SourceLine} {name : Text}
    (h : line.label? = some name) (new : bindingIn? lines [] name = none) (other : Text) :
    bindingIn? (lines ++ [line]) [] other =
      if name = other then some ⟨(operations lines).length, .label⟩
      else bindingIn? lines [] other := by
  have isNew : predefinedAddress? name = none ∧ labelAddress? lines name = none := by
    have := (bindingIn?_eq_none_iff.1 new).1
    simpa [isVariable] using this
  by_cases same : name = other
  · subst same
    rw [if_pos rfl, bindingIn?_nil, labelAddress?_concat, isNew.1, isNew.2]
    simp [h]
  · rw [if_neg same, bindingIn?_nil, bindingIn?_nil, labelAddress?_concat, h]
    cases labelAddress? lines other <;> simp [same]

end Meaning
end HackMachine
