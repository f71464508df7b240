import HackMachine.Proofs.Assembly.Symbols
import HackMachine.Proofs.Symbol.History

/-!
# The list of all symbols

A table lists its symbols by address, and those of one address by name.  The list is made by going
through the bindings in some order and sorting what was found.  Neither step is determined: a map
may be gone through in any order, and a sort may exchange entries that it takes to be equal.  The
list is determined all the same, since no two symbols are equal for the sort, even if they have the
same address: a name is bound once, and it is bound under itself.

* `Enumerates`: the symbols of a table in any order.
* `IsSorting`: what a sort may return.  Nothing is asked of it but that no entry comes after one
  that it belongs before.
* `Symbol.Before`: the strict order of a listing, which decides between any two names
  (`before_of_name_ne`).

`enumerates_run` gives one such order for every history of a table: the predefined symbols first,
and then what the requests have bound, one by one.  It is proved along the history, and in each step
it is used that a name that is bound was not bound before.
-/

namespace HackMachine

/-! ## The order of a listing -/

namespace Symbol

/-- The strict order of a listing: by address, then by name, where names are compared byte by
byte. -/
def Before (s t : Symbol) : Prop :=
  s.address < t.address ∨ s.address = t.address ∧ s.name < t.name

instance (s t : Symbol) : Decidable (s.Before t) :=
  inferInstanceAs (Decidable (_ ∨ _))

variable {s t u : Symbol}

theorem Before.asymm (h : s.Before t) : ¬ t.Before s := by
  rcases h with less | ⟨same, less⟩
  · rintro (more | ⟨same, -⟩) <;> omega
  · rintro (more | ⟨-, more⟩)
    · omega
    · exact List.lt_irrefl _ (List.lt_trans less more)

/-- Of two symbols with different names, one comes first. -/
theorem before_of_name_ne (apart : s.name ≠ t.name) (h : ¬ t.Before s) : s.Before t := by
  rw [Before, not_or, not_and] at h
  rcases Int.lt_or_eq_of_le (Int.not_lt.1 h.1) with less | same
  · exact .inl less
  · refine .inr ⟨same, Decidable.not_not.1 fun more => apart ?_⟩
    exact List.le_antisymm (List.not_lt.1 (h.2 same.symm)) (List.not_lt.1 more)

/-- The order that the table sorts by is the strict order, or equality. -/
theorem listedBefore_iff : s.listedBefore t ↔ ¬ t.Before s := by
  simp only [listedBefore, Before, Bool.or_eq_true, Bool.and_eq_true, decide_eq_true_eq,
    beq_iff_eq, not_or, not_and, List.not_lt]
  constructor
  · rintro (less | ⟨same, le⟩)
    · exact ⟨by omega, fun same => by omega⟩
    · exact ⟨by omega, fun _ => le⟩
  · rintro ⟨le, names⟩
    rcases Int.lt_or_eq_of_le (Int.not_lt.1 le) with less | same
    · exact .inl less
    · exact .inr ⟨same, names same.symm⟩

theorem listedBefore_total (s t : Symbol) : s.listedBefore t || t.listedBefore s := by
  rw [Bool.or_eq_true, listedBefore_iff, listedBefore_iff]
  by_cases h : t.Before s
  · exact .inr h.asymm
  · exact .inl h

theorem listedBefore_trans (s t u : Symbol) (first : s.listedBefore t)
    (second : t.listedBefore u) : s.listedBefore u := by
  simp only [listedBefore, Bool.or_eq_true, Bool.and_eq_true, decide_eq_true_eq,
    beq_iff_eq] at first second ⊢
  rcases first with less | ⟨same, le⟩
  · rcases second with less' | ⟨same', -⟩ <;> exact .inl (by omega)
  · rcases second with less' | ⟨same', le'⟩
    · exact .inl (by omega)
    · exact .inr ⟨by omega, List.le_trans le le'⟩

end Symbol

/-- `out` may come of sorting `order`: it has the same symbols, and none of them stands behind one
that it belongs before. -/
structure IsSorting (order out : List Symbol) : Prop where
  perm : out.Perm order
  sorted : out.Pairwise fun s t => ¬ t.Before s

theorem isSorting_mergeSort (order : List Symbol) :
    IsSorting order (order.mergeSort Symbol.listedBefore) where
  perm := List.mergeSort_perm order Symbol.listedBefore
  sorted := by
    have sorted := List.pairwise_mergeSort Symbol.listedBefore_trans Symbol.listedBefore_total order
    exact sorted.imp Symbol.listedBefore_iff.1

/-! ## The symbols of a table in any order -/

namespace SymbolTable

/-- `order` has every bound name once, with what it is bound to, and nothing else. -/
structure Enumerates (table : SymbolTable) (order : List Symbol) : Prop where
  once : (order.map (·.name)).Nodup
  mem : ∀ s, s ∈ order ↔ table.lookup? s.name = some ⟨s.address, s.kind⟩

section Enumerates

variable {table : SymbolTable} {order out : List Symbol}

theorem enumerates_symbols (table : SymbolTable) : Enumerates table table.symbols :=
  ⟨table.nodup_names_symbols, fun _ => mem_symbols_iff⟩

theorem length_symbols (table : SymbolTable) : table.symbols.length = table.size := by
  rw [symbols, List.length_mergeSort, List.length_map, Std.ExtTreeMap.length_toList, size]

theorem Enumerates.of_perm (h : Enumerates table order) (perm : out.Perm order) :
    Enumerates table out :=
  ⟨(perm.map _).nodup_iff.2 h.once, fun s => perm.mem_iff.trans (h.mem s)⟩

/-- Two orders have the same symbols. -/
theorem Enumerates.perm (h : Enumerates table order) (h' : Enumerates table out) :
    order.Perm out := by
  rw [List.perm_ext_iff_of_nodup (.of_map _ h.once) (.of_map _ h'.once)]
  intro s
  rw [h.mem, h'.mem]

/-- Any one name is listed with what it is bound to, and not at all if it is not bound. -/
theorem Enumerates.filter_name (h : Enumerates table order) (name : Text) :
    order.filter (·.name == name) =
      ((table.lookup? name).map fun b => (⟨name, b.address, b.kind⟩ : Symbol)).toList := by
  have listed : ∀ s, s ∈ order.filter (·.name == name) ↔
      s.name = name ∧ table.lookup? name = some ⟨s.address, s.kind⟩ := by
    intro s
    rw [List.mem_filter, beq_iff_eq, h.mem, and_comm]
    exact and_congr_right fun same => by rw [same]
  cases bound : table.lookup? name with
  | none =>
    refine List.eq_nil_iff_forall_not_mem.2 fun s hs => ?_
    rw [listed, bound] at hs
    cases hs.2
  | some b =>
    have nodup : (order.filter (·.name == name)).Nodup := (List.Nodup.of_map _ h.once).filter _
    refine List.perm_singleton.1 ((List.perm_ext_iff_of_nodup nodup (List.nodup_singleton _)).2 ?_)
    rintro ⟨name', address, kind⟩
    rw [listed, bound, List.mem_singleton, Symbol.mk.injEq, Option.some.injEq]
    constructor
    · rintro ⟨rfl, rfl⟩
      exact ⟨rfl, rfl, rfl⟩
    · rintro ⟨rfl, rfl, rfl⟩
      exact ⟨rfl, rfl⟩

/-- Sorting the symbols of a table never meets two that it cannot tell apart. -/
theorem Enumerates.pairwise_before (h : Enumerates table order) (sorting : IsSorting order out) :
    out.Pairwise Symbol.Before := by
  have names : out.Pairwise fun s t => s.name ≠ t.name :=
    List.pairwise_map.1 (h.of_perm sorting.perm).once
  exact names.imp₂ (fun _ _ apart least => Symbol.before_of_name_ne apart least) sorting.sorted

theorem pairwise_symbols (table : SymbolTable) : table.symbols.Pairwise Symbol.Before := by
  have sorting := isSorting_mergeSort
    (table.bindings.toList.map fun entry => ⟨entry.1, entry.2.address, entry.2.kind⟩)
  exact ((enumerates_symbols table).of_perm sorting.perm.symm).pairwise_before sorting

/-- Whatever order the symbols are found in, and however they are sorted, the list is the same. -/
theorem Enumerates.eq_symbols (h : Enumerates table order) (sorting : IsSorting order out) :
    out = table.symbols := by
  have perm : out.Perm table.symbols := sorting.perm.trans (h.perm (enumerates_symbols table))
  refine perm.eq_of_pairwise ?_ (h.pairwise_before sorting) table.pairwise_symbols
  intro s t _ _ first second
  exact absurd second first.asymm

/-- A new binding is one more symbol. -/
theorem Enumerates.bind (h : Enumerates table order) {name : Text}
    (new : table.lookup? name = none) (b : Binding) :
    Enumerates (table.bind name b) (order ++ [⟨name, b.address, b.kind⟩]) := by
  have notListed : ∀ s ∈ order, s.name ≠ name := by
    rintro s hs rfl
    rw [h.mem, new] at hs
    cases hs
  constructor
  · rw [List.map_append, List.map_singleton, List.nodup_append]
    refine ⟨h.once, List.nodup_singleton _, ?_⟩
    rintro _ hlisted _ hnew rfl
    obtain ⟨s, hs, same⟩ := List.mem_map.1 hlisted
    exact notListed s hs (same.trans (List.mem_singleton.1 hnew))
  · rintro ⟨other, address, kind⟩
    rw [List.mem_append, List.mem_singleton, Symbol.mk.injEq, lookup?_bind]
    by_cases same : name = other
    · subst same
      rw [if_pos rfl, Option.some.injEq]
      constructor
      · rintro (old | ⟨-, rfl, rfl⟩)
        · exact absurd rfl (notListed _ old)
        · rfl
      · rintro rfl
        exact .inr ⟨rfl, rfl, rfl⟩
    · rw [if_neg same, h.mem]
      exact ⟨fun listed => listed.resolve_right fun last => same last.1.symm, .inl⟩

theorem enumerates_initial : Enumerates initial Meaning.predefinedSymbols where
  once := by
    rw [Meaning.map_name_predefinedSymbols]
    exact nodup_predefinedNames
  mem s := by
    rw [lookup?_initial, Option.map_eq_some_iff]
    exact Meaning.mem_predefinedSymbols_iff

end Enumerates
end SymbolTable

/-! ## The symbols of a history -/

namespace SharedTable

open SymbolTable

/-- The symbol that a request has bound. -/
def Entry.symbol? (e : Entry) : Option Symbol :=
  match e.request with
  | .define name b => if e.isDefinition then some ⟨name, b.address, b.kind⟩ else none
  | .addResolver _ => none
  | .resolve _ _ => e.allocation?.map fun a => ⟨a.name, a.address, .memory⟩

/-- The predefined symbols and those that have been bound since, in the order in which they were. -/
def boundBy (entries : List Entry) : List Symbol :=
  Meaning.predefinedSymbols ++ entries.filterMap (·.symbol?)

/-- One request adds the symbol that it binds. -/
theorem enumerates_answer {s : SharedTable} {order : List Symbol} (h : Enumerates s.table order)
    (request : Request) :
    Enumerates (s.answer request).1.table (order ++ (s.log [request]).filterMap (·.symbol?)) := by
  have effect := effect_answer s request
  simp only [log]
  generalize (s.answer request).1 = t at effect ⊢
  generalize (s.answer request).2 = reply at effect ⊢
  cases effect with
  | @defined name b new => exact h.bind new b
  | @allocated resolver name r who other new =>
    -- the name was not bound before, and is bound after it
    have symbol : Entry.symbol? ⟨s, .resolve resolver name, .address r.next,
        ⟨s.table.bind name ⟨r.next, .memory⟩,
          s.resolvers.set resolver { r with allocated := r.allocated + 1 }⟩⟩ =
        some ⟨name, r.next, .memory⟩ := by
      simp [Entry.symbol?, Entry.allocation?, new, SymbolTable.lookup?_bind]
    rw [List.filterMap_cons_some symbol]
    exact h.bind new ⟨r.next, .memory⟩
  | taken | made | absent | register | found | dead =>
    simpa [Entry.symbol?, Entry.isDefinition, Entry.allocation?] using h

theorem enumerates_run (requests : List Request) :
    Enumerates (start.run requests).table (boundBy (start.log requests)) := by
  induction requests using List.reverseRecOn with
  | nil =>
    rw [boundBy, log, List.filterMap_nil, List.append_nil]
    exact enumerates_initial
  | append_singleton requests request ih =>
    rw [run_append, log_append, boundBy, List.filterMap_append, ← List.append_assoc]
    exact enumerates_answer ih request

/-- The symbols of a table that has come about by requests.

* Going through the bindings in any order, and sorting the symbols in any way, gives the list
  of the table.
* The list is strictly increasing, by address and then by name.
* Any one name occurs in it once with what it is bound to, and not at all if it is not bound.
* It is as long as the table is large.
* It has the predefined symbols and those that the requests have bound. -/
theorem symbols_do_not_depend_on_order (requests : List Request) :
    (∀ order out, Enumerates (start.run requests).table order → IsSorting order out →
      out = (start.run requests).table.symbols) ∧
    (start.run requests).table.symbols.Pairwise Symbol.Before ∧
    (∀ name, (start.run requests).table.symbols.filter (·.name == name) =
      (((start.run requests).table.lookup? name).map
        fun b => (⟨name, b.address, b.kind⟩ : Symbol)).toList) ∧
    (start.run requests).table.symbols.length = (start.run requests).table.size ∧
    (start.run requests).table.symbols.Perm (boundBy (start.log requests)) :=
  ⟨fun _ _ found sorting => found.eq_symbols sorting, pairwise_symbols _,
    (enumerates_symbols _).filter_name, length_symbols _,
    (enumerates_symbols _).perm (enumerates_run requests)⟩

/-- Names with equal and with negative addresses, and a resolver that adds one. -/
def crowded : List Request :=
  [.define (Text.ascii "b") ⟨-1, .label⟩, .addResolver 5, .define (Text.ascii "a") ⟨-1, .other 7⟩,
    .define (Text.ascii "R1") ⟨-9, .label⟩, .resolve 0 (Text.ascii "x"),
    .define (Text.ascii "B") ⟨16, .label⟩]

/-- The list of its symbols. -/
def crowdedSymbols : List Symbol :=
  [⟨Text.ascii "a", -1, .other 7⟩, ⟨Text.ascii "b", -1, .label⟩] ++
    ([("R0", 0), ("SP", 0), ("LCL", 1), ("R1", 1), ("ARG", 2), ("R2", 2), ("R3", 3), ("THIS", 3),
      ("R4", 4), ("THAT", 4), ("R5", 5), ("R6", 6), ("R7", 7), ("R8", 8), ("R9", 9), ("R10", 10),
      ("R11", 11), ("R12", 12), ("R13", 13), ("R14", 14), ("R15", 15)].map
        fun entry => ⟨Text.ascii entry.1, entry.2, .predefined⟩) ++
    [⟨Text.ascii "B", 16, .label⟩, ⟨Text.ascii "x", 16, .memory⟩,
      ⟨Text.ascii "SCREEN", 16384, .predefined⟩, ⟨Text.ascii "KBD", 24576, .predefined⟩]

/-- The bindings are gone through from the last to the first. -/
theorem symbols_do_not_depend_on_order_crowded :
    Enumerates (start.run crowded).table (boundBy (start.log crowded)).reverse ∧
      IsSorting (boundBy (start.log crowded)).reverse crowdedSymbols ∧
      (start.run crowded).table.symbols = crowdedSymbols ∧
      (start.run crowded).table.size = 27 := by
  obtain ⟨same, -, -, length, -⟩ := symbols_do_not_depend_on_order crowded
  have found := (enumerates_run crowded).of_perm (List.reverse_perm (boundBy (start.log crowded)))
  have sorting : IsSorting (boundBy (start.log crowded)).reverse crowdedSymbols :=
    ⟨by decide, by decide⟩
  have listed := (same _ _ found sorting).symm
  exact ⟨found, sorting, listed, by rw [← length, listed]; rfl⟩

end SharedTable
end HackMachine
