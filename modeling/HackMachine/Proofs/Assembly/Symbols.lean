import HackMachine.Proofs.Assembly.Labels
import Mathlib.Data.List.Nodup

/-!
# The symbols of a program

`programSymbols` lists what a program binds: the predefined names, the labels in the order of their
lines, and the variables by first use.  `symbolsIn` is the same for a part of the program, of which
only the variables are taken into account; the program itself is the last part.

If no line of the program is at fault, no name is listed twice, so a table that binds what a part
says lists the same symbols in some order (`symbols_perm_symbolsIn`).
-/

namespace HackMachine
namespace Meaning

/-- The symbols that every program has. -/
def predefinedSymbols : List Symbol :=
  predefinedNames.map fun entry => ⟨entry.1, entry.2, .predefined⟩

/-- The labels of a program, each with the number of instruction lines before it. -/
def labelSymbols (lines : List SourceLine) : List Symbol :=
  lines.zipIdx.filterMap fun entry =>
    entry.1.label?.map fun name => ⟨name, (operations (lines.take entry.2)).length, .label⟩

/-- The variables that a part of the program uses, numbered by first use from 16 on. -/
def variableSymbolsIn (lines part : List SourceLine) : List Symbol :=
  (variablesIn lines part).zipIdx.map fun entry => ⟨entry.1, (16 + entry.2 : Nat), .memory⟩

/-- The symbols that are bound when a part of the program has been seen. -/
def symbolsIn (lines part : List SourceLine) : List Symbol :=
  predefinedSymbols ++ (labelSymbols lines ++ variableSymbolsIn lines part)

/-- The variables of a program. -/
def variableSymbols (lines : List SourceLine) : List Symbol := variableSymbolsIn lines lines

/-- All symbols of a program. -/
def programSymbols (lines : List SourceLine) : List Symbol := symbolsIn lines lines

/-! ## No name is listed twice -/

theorem nodup_eraseDups (l : List Text) : l.eraseDups.Nodup := by
  induction l using List.reverseRecOn with
  | nil => exact List.nodup_nil
  | append_singleton l a ih =>
    rw [eraseDups_concat]
    split
    · exact ih
    · next new =>
      refine List.nodup_append.2 ⟨ih, List.nodup_singleton a, ?_⟩
      rintro b hb c hc rfl
      rw [List.mem_singleton.1 hc, List.mem_eraseDups] at hb
      exact new hb

theorem nodup_variablesIn (lines part : List SourceLine) : (variablesIn lines part).Nodup :=
  nodup_eraseDups _

theorem map_name_predefinedSymbols :
    predefinedSymbols.map (·.name) = predefinedNames.map (·.1) := by
  rw [predefinedSymbols, List.map_map]
  rfl

/-- The predefined symbols are the predefined names with their addresses. -/
theorem mem_predefinedSymbols_iff {s : Symbol} :
    s ∈ predefinedSymbols ↔
      ∃ a : Nat, predefinedAddress? s.name = some a ∧ (⟨a, .predefined⟩ : Binding) =
        ⟨s.address, s.kind⟩ := by
  have known : ∀ entry ∈ predefinedNames, predefinedAddress? entry.1 = some entry.2 := by decide
  rw [predefinedSymbols, List.mem_map]
  constructor
  · rintro ⟨entry, hentry, rfl⟩
    exact ⟨entry.2, known entry hentry, rfl⟩
  · rintro ⟨a, predefined, same⟩
    obtain ⟨name, address, kind⟩ := s
    obtain ⟨rfl, rfl⟩ := Binding.mk.inj same
    exact ⟨(name, a), mem_predefinedNames predefined, rfl⟩

theorem map_name_labelSymbols (lines : List SourceLine) :
    (labelSymbols lines).map (·.name) = lines.filterMap (·.label?) := by
  rw [labelSymbols, List.map_filterMap]
  conv_rhs => rw [← List.zipIdx_map_fst 0 lines, List.filterMap_map]
  congr 1
  funext entry
  cases h : entry.1.label? <;> simp [h]

theorem map_name_variableSymbolsIn (lines part : List SourceLine) :
    (variableSymbolsIn lines part).map (·.name) = variablesIn lines part := by
  rw [variableSymbolsIn, List.map_map]
  exact List.zipIdx_map_fst 0 (variablesIn lines part)

section Clean

variable {lines part : List SourceLine} (clean : ∀ i fault, ¬ LayoutFault lines i fault)
include clean

theorem nodup_labels : (lines.filterMap (·.label?)).Nodup := by
  rw [List.Nodup, List.pairwise_filterMap, List.pairwise_iff_getElem]
  rintro i j hi hj before name hname _ hother rfl
  exact clean j _ (.repeated (List.getElem?_eq_getElem hj) hother before
    (List.getElem?_eq_getElem hi) hname)

/-- A label is not predefined, and not a variable. -/
theorem label_facts {name : Text} (h : name ∈ lines.filterMap (·.label?)) :
    predefinedAddress? name = none ∧ ∀ part, name ∉ variablesIn lines part := by
  obtain ⟨line, hmem, label⟩ := List.mem_filterMap.1 h
  obtain ⟨j, at_j⟩ := List.mem_iff_getElem?.1 hmem
  obtain ⟨new, defined⟩ := labelAddress?_of_clean clean at_j label
  refine ⟨new, fun part used => ?_⟩
  have isVar := isVariable_of_mem_variablesIn used
  simp [isVariable, defined] at isVar

theorem nodup_names_symbolsIn : ((symbolsIn lines part).map (·.name)).Nodup := by
  rw [symbolsIn, List.map_append, List.map_append, map_name_predefinedSymbols,
    map_name_labelSymbols, map_name_variableSymbolsIn]
  have known : ∀ name ∈ predefinedNames.map (·.1), predefinedAddress? name ≠ none := by decide
  refine List.nodup_append.2 ⟨nodup_predefinedNames, List.nodup_append.2
    ⟨nodup_labels clean, nodup_variablesIn lines part, ?_⟩, ?_⟩
  · rintro name hname _ hother rfl
    exact (label_facts clean hname).2 part hother
  · rintro name hname _ hother rfl
    rcases List.mem_append.1 hother with hlabel | hvariable
    · exact known name hname (label_facts clean hlabel).1
    · have isVar := isVariable_of_mem_variablesIn hvariable
      simp only [isVariable, Bool.and_eq_true, Option.isNone_iff_eq_none] at isVar
      exact known name hname isVar.1

/-! ## The list and the bindings -/

/-- What is listed is bound. -/
theorem bindingIn?_of_mem_symbolsIn {s : Symbol} (h : s ∈ symbolsIn lines part) :
    bindingIn? lines part s.name = some ⟨s.address, s.kind⟩ := by
  rcases List.mem_append.1 h with h | h
  · obtain ⟨a, known, same⟩ := mem_predefinedSymbols_iff.1 h
    rw [← same]
    exact bindingIn?_of_predefined known lines part
  rcases List.mem_append.1 h with h | h
  · obtain ⟨⟨line, j⟩, hmem, hs⟩ := List.mem_filterMap.1 h
    obtain ⟨name, label, rfl⟩ := Option.map_eq_some_iff.1 hs
    have at_j := List.mk_mem_zipIdx_iff_getElem?.1 hmem
    obtain ⟨new, defined⟩ := labelAddress?_of_clean clean at_j label
    exact bindingIn?_of_label new defined part
  · obtain ⟨⟨name, k⟩, hmem, rfl⟩ := List.mem_map.1 h
    have at_k := List.mk_mem_zipIdx_iff_getElem?.1 hmem
    obtain ⟨hk, same⟩ := List.getElem?_eq_some_iff.1 at_k
    -- names are listed once, so the place of a variable is its first use
    refine bindingIn?_of_idxOf? (List.idxOf?_eq_some_iff.2 ⟨hk, same, fun j hj again => ?_⟩)
    have apart := List.pairwise_iff_getElem.1 (nodup_variablesIn lines part) j k (by omega) hk hj
    exact apart (again.trans same.symm)

omit clean in
/-- What is bound is listed. -/
theorem mem_symbolsIn_of_bindingIn? {s : Symbol}
    (h : bindingIn? lines part s.name = some ⟨s.address, s.kind⟩) : s ∈ symbolsIn lines part := by
  obtain ⟨name, address, kind⟩ := s
  rcases bindingIn?_cases h with ⟨a, hp, same⟩ | ⟨a, -, hl, same⟩ | ⟨k, -, used, same⟩
  · exact List.mem_append_left _ (mem_predefinedSymbols_iff.2 ⟨a, hp, same.symm⟩)
  · obtain ⟨rfl, rfl⟩ := Binding.mk.inj same
    obtain ⟨j, line, at_j, label, -, rfl⟩ := labelAddress?_eq_some_iff.1 hl
    refine List.mem_append_right _ (List.mem_append_left _ (List.mem_filterMap.2
      ⟨(line, j), List.mk_mem_zipIdx_iff_getElem?.2 at_j, ?_⟩))
    exact Option.map_eq_some_iff.2 ⟨name, label, rfl⟩
  · obtain ⟨rfl, rfl⟩ := Binding.mk.inj same
    obtain ⟨hk, at_k, -⟩ := List.idxOf?_eq_some_iff.1 used
    refine List.mem_append_right _ (List.mem_append_right _ (List.mem_map.2
      ⟨(name, k), List.mk_mem_zipIdx_iff_getElem?.2 ?_, rfl⟩))
    exact List.getElem?_eq_some_iff.2 ⟨hk, at_k⟩

/-- A table that binds what a part of the program says lists the symbols of that part. -/
theorem symbols_perm_symbolsIn {table : SymbolTable}
    (lookup : ∀ name, table.lookup? name = bindingIn? lines part name) :
    table.symbols.Perm (symbolsIn lines part) := by
  rw [List.perm_ext_iff_of_nodup (.of_map _ table.nodup_names_symbols)
    (.of_map _ (nodup_names_symbolsIn clean))]
  intro s
  rw [SymbolTable.mem_symbols_iff, lookup]
  exact ⟨mem_symbolsIn_of_bindingIn?, bindingIn?_of_mem_symbolsIn clean⟩

/-- A table that binds what the program says lists its symbols. -/
theorem symbols_perm_programSymbols {table : SymbolTable}
    (lookup : ∀ name, table.lookup? name = binding? lines name) :
    table.symbols.Perm (programSymbols lines) :=
  symbols_perm_symbolsIn clean lookup

end Clean
end Meaning
end HackMachine
