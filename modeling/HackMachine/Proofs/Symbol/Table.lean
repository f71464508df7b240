import HackMachine.Symbol.Basic
import HackMachine.Symbol.Table

/-!
# What a symbol table holds

Three views of a table have to agree: looking up a name, the list of all symbols, and, for the table
that every program starts from, the list of predefined names.

* `lookup?_initial`: the initial table binds the predefined names, and nothing else.
* `mem_symbols_iff`, `nodup_names_symbols`: the symbols are the bindings, each name once.
-/

namespace HackMachine

/-! ## The predefined names -/

/-- No name is predefined twice. -/
theorem nodup_predefinedNames : (predefinedNames.map (·.1)).Nodup := by decide

theorem mem_predefinedNames {name : Text} {address : Nat}
    (h : predefinedAddress? name = some address) : (name, address) ∈ predefinedNames := by
  rw [predefinedAddress?, List.lookup_eq_some_iff] at h
  obtain ⟨before, after, split, -⟩ := h
  rw [split]
  simp

/-- Every predefined address fits an instruction. -/
theorem predefinedAddress?_lt {name : Text} {address : Nat}
    (h : predefinedAddress? name = some address) : address < 32768 := by
  have small : ∀ entry ∈ predefinedNames, entry.2 < 32768 := by decide
  exact small _ (mem_predefinedNames h)

/-- The predefined names are names that a program can use. -/
theorem isName_of_predefinedAddress? {name : Text} {address : Nat}
    (h : predefinedAddress? name = some address) : isName name := by
  have valid : ∀ entry ∈ predefinedNames, isName entry.1 := by decide
  exact valid _ (mem_predefinedNames h)

namespace SymbolTable

theorem lookup?_empty (name : Text) : empty.lookup? name = none := by
  simp [empty, lookup?]

/-- Binding distinct names one after the other: a name among them gets its own address, any other
keeps what it had. -/
theorem lookup?_foldl_bind (entries : List (Text × Nat)) (distinct : (entries.map (·.1)).Nodup)
    (table : SymbolTable) (name : Text) :
    (entries.foldl (fun table entry => table.bind entry.1 ⟨entry.2, .predefined⟩) table).lookup?
        name =
      match entries.lookup name with
      | some address => some ⟨address, .predefined⟩
      | none => table.lookup? name := by
  induction entries generalizing table with
  | nil => rfl
  | cons entry entries ih =>
    obtain ⟨key, address⟩ := entry
    rw [List.map_cons, List.nodup_cons] at distinct
    rw [List.foldl_cons, ih distinct.2, List.lookup_cons]
    by_cases same : name = key
    · subst same
      -- the later entries do not mention the name again
      have gone : entries.lookup name = none := by
        rw [List.lookup_eq_none_iff]
        intro later hlater
        rw [bne_iff_ne]
        intro again
        exact distinct.1 (List.mem_map.2 ⟨later, hlater, again.symm⟩)
      simp only [gone, beq_self_eq_true, lookup?_bind, if_true]
    · simp only [beq_eq_false_iff_ne.2 same, lookup?_bind, if_neg (Ne.symm same)]

/-- The initial table binds the predefined names, and nothing else. -/
theorem lookup?_initial (name : Text) :
    initial.lookup? name = (predefinedAddress? name).map fun n : Nat => ⟨n, .predefined⟩ := by
  rw [initial, lookup?_foldl_bind _ nodup_predefinedNames, lookup?_empty, predefinedAddress?]
  cases predefinedNames.lookup name <;> rfl

theorem size_initial : initial.size = 23 := by decide

/-- A new binding leaves the others alone. -/
theorem lookup?_bind_of_new {table : SymbolTable} {name : Text} (new : table.lookup? name = none)
    {binding : Binding} {other : Text} {b : Binding} (h : table.lookup? other = some b) :
    (table.bind name binding).lookup? other = some b := by
  have apart : name ≠ other := by
    rintro rfl
    rw [new] at h
    cases h
  rw [lookup?_bind, if_neg apart, h]

/-! ## The list of symbols -/

/-- A symbol is listed exactly if the table binds its name in that way. -/
theorem mem_symbols_iff {table : SymbolTable} {s : Symbol} :
    s ∈ table.symbols ↔ table.lookup? s.name = some ⟨s.address, s.kind⟩ := by
  rw [symbols, List.mem_mergeSort, List.mem_map, lookup?]
  constructor
  · rintro ⟨⟨name, binding⟩, hmem, rfl⟩
    exact Std.ExtTreeMap.mem_toList_iff_getElem?_eq_some.1 hmem
  · intro h
    exact ⟨(s.name, ⟨s.address, s.kind⟩), Std.ExtTreeMap.mem_toList_iff_getElem?_eq_some.2 h, rfl⟩

/-- No name is listed twice. -/
theorem nodup_names_symbols (table : SymbolTable) : (table.symbols.map (·.name)).Nodup := by
  have keys : (table.bindings.toList.map (·.1)).Nodup := by
    rw [List.Nodup, List.pairwise_map]
    refine table.bindings.distinct_keys_toList.imp ?_
    intro a b apart same
    exact apart (same ▸ Std.ReflCmp.compare_self)
  have perm := (List.mergeSort_perm
    (table.bindings.toList.map fun entry => (⟨entry.1, entry.2.address, entry.2.kind⟩ : Symbol))
    Symbol.listedBefore).map (·.name)
  rw [symbols, perm.nodup_iff, List.map_map]
  exact keys

end SymbolTable
end HackMachine
