import HackMachine.Proofs.Symbol.Resolver
import HackMachine.Proofs.Symbol.Table
import Mathlib.Data.List.Induction

/-!
# Histories of a symbol table

A table is used by whoever defines names in it and by any number of resolvers, in any order.  This
file looks at such a history as a whole.  `SharedTable` is a table with the resolvers that work on
it, a `Request` is an operation on them, and `answer` carries one out.

Everything rests on two facts about a single request:

* `Effect` lists the eight things that a request can do, with their conditions (`effect_answer`);
* whatever it does, names that are bound stay bound in the same way, and resolvers stay what they
  are (`Extends`).

The second is kept by whole histories (`extends_run`), and so a name is resolved again as it was
resolved before (`Effect.again`).  From the first follow the numbers: what is bound beyond the
predefined names has been defined or allocated, and the addresses that a resolver has given out are
16, 17, 18 and so on (`Accounts`).  An allocation is recognised from outside, as a request to resolve
a name that was not bound before and is bound after it, so that the count does not come from the
counter it is compared with.
-/

namespace HackMachine

/-- A table, and the resolvers that work on it in the order in which they were made. -/
structure SharedTable where
  table : SymbolTable
  resolvers : List Resolver

namespace SharedTable

/-- An operation on a shared table. -/
inductive Request where
  | define (name : Text) (binding : Binding)
  /-- Make another resolver, for a program of this length. -/
  | addResolver (programLength : Int)
  /-- Resolve a name with the resolver of this number. -/
  | resolve (resolver : Nat) (name : Text)
  deriving DecidableEq

/-- What an operation returns. -/
inductive Reply where
  | done
  | address (value : Int)
  /-- The operation has failed. -/
  | refused (why : Fault)
  /-- There is no resolver of the number that was given. -/
  | noResolver
  deriving DecidableEq

/-- Before the first request there are only the predefined names. -/
def start : SharedTable := ⟨.initial, []⟩

/-- Carry out a request. -/
def answer (s : SharedTable) : Request → SharedTable × Reply
  | .define name binding =>
    match s.table.define name binding with
    | .error earlier => (s, .refused (.duplicateLabel name earlier))
    | .ok table => ({ s with table := table }, .done)
  | .addResolver programLength =>
    ({ s with resolvers := s.resolvers ++ [{ programLength := programLength }] }, .done)
  | .resolve resolver name =>
    match s.resolvers[resolver]? with
    | none => (s, .noResolver)
    | some r =>
      match r.resolve s.table name with
      | .error why => (s, .refused why)
      | .ok found =>
        (⟨found.table, s.resolvers.set resolver found.resolver⟩, .address found.address)

/-- Carry out requests one after the other. -/
def run (s : SharedTable) (requests : List Request) : SharedTable :=
  requests.foldl (fun s request => (s.answer request).1) s

@[simp] theorem run_nil (s : SharedTable) : s.run [] = s := rfl

@[simp] theorem run_cons (s : SharedTable) (request : Request) (requests : List Request) :
    s.run (request :: requests) = (s.answer request).1.run requests := rfl

@[simp] theorem run_append (s : SharedTable) (requests more : List Request) :
    s.run (requests ++ more) = (s.run requests).run more :=
  List.foldl_append

/-! ## One request -/

/-- Whether a resolver for a program of length `programLength` has no use for a binding: it is a
label that no instruction follows. -/
def IsDead (programLength : Int) (binding : Binding) : Prop :=
  binding.kind = .label ∧ programLength ≤ binding.address

/-- What a request does to a shared table, and what it returns. -/
inductive Effect (s : SharedTable) : Request → SharedTable → Reply → Prop where
  | defined {name : Text} {binding : Binding} (new : s.table.lookup? name = none) :
      Effect s (.define name binding) { s with table := s.table.bind name binding } .done
  | taken {name : Text} {binding earlier : Binding} (bound : s.table.lookup? name = some earlier) :
      Effect s (.define name binding) s (.refused (.duplicateLabel name earlier))
  | made {programLength : Int} :
      Effect s (.addResolver programLength)
        { s with resolvers := s.resolvers ++ [{ programLength := programLength }] } .done
  | absent {resolver : Nat} {name : Text} (nobody : s.resolvers[resolver]? = none) :
      Effect s (.resolve resolver name) s .noResolver
  | register {resolver : Nat} {name : Text} {r : Resolver} {n : Nat}
      (who : s.resolvers[resolver]? = some r) (spelled : registerNumber? name = some n) :
      Effect s (.resolve resolver name) s (.address n)
  | found {resolver : Nat} {name : Text} {r : Resolver} {binding : Binding}
      (who : s.resolvers[resolver]? = some r) (other : registerNumber? name = none)
      (bound : s.table.lookup? name = some binding) (live : ¬ IsDead r.programLength binding) :
      Effect s (.resolve resolver name) s (.address binding.address)
  | dead {resolver : Nat} {name : Text} {r : Resolver} {binding : Binding}
      (who : s.resolvers[resolver]? = some r) (other : registerNumber? name = none)
      (bound : s.table.lookup? name = some binding) (dead : IsDead r.programLength binding) :
      Effect s (.resolve resolver name) s (.refused (.deadLabel name))
  | allocated {resolver : Nat} {name : Text} {r : Resolver}
      (who : s.resolvers[resolver]? = some r) (other : registerNumber? name = none)
      (new : s.table.lookup? name = none) :
      Effect s (.resolve resolver name)
        ⟨s.table.bind name ⟨r.next, .memory⟩,
          s.resolvers.set resolver { r with allocated := r.allocated + 1 }⟩ (.address r.next)

theorem set_resolver_self {s : SharedTable} {resolver : Nat} {r : Resolver}
    (who : s.resolvers[resolver]? = some r) : s.resolvers.set resolver r = s.resolvers := by
  obtain ⟨inside, rfl⟩ := List.getElem?_eq_some_iff.1 who
  exact List.set_getElem_self inside

/-- A request does one of these things. -/
theorem effect_answer (s : SharedTable) (request : Request) :
    Effect s request (s.answer request).1 (s.answer request).2 := by
  match request with
  | .define name binding =>
    simp only [answer, SymbolTable.define]
    cases h : s.table.lookup? name with
    | some earlier => exact .taken h
    | none => exact .defined h
  | .addResolver programLength => exact .made
  | .resolve resolver name =>
    simp only [answer]
    cases who : s.resolvers[resolver]? with
    | none => exact .absent who
    | some r =>
      cases spelled : registerNumber? name with
      | some n =>
        simp only [r.resolve_of_register spelled, set_resolver_self who]
        exact .register who spelled
      | none =>
        cases bound : s.table.lookup? name with
        | none =>
          simp only [r.resolve_of_new spelled bound]
          exact .allocated who spelled bound
        | some binding =>
          by_cases dead : IsDead r.programLength binding
          · simp only [(r.resolve_of_bound spelled bound).trans (if_pos dead)]
            exact .dead who spelled bound dead
          · simp only [(r.resolve_of_bound spelled bound).trans (if_neg dead),
              set_resolver_self who]
            exact .found who spelled bound dead

/-- The conditions of `Effect` decide what a request does. -/
theorem Effect.answer_eq {s t : SharedTable} {request : Request} {reply : Reply}
    (h : Effect s request t reply) : s.answer request = (t, reply) := by
  cases h with
  | defined new => simp only [answer, SymbolTable.define, new]
  | taken bound => simp only [answer, SymbolTable.define, bound]
  | made => rfl
  | absent nobody => simp only [answer, nobody]
  | register who spelled =>
    simp only [answer, who, Resolver.resolve_of_register _ spelled, set_resolver_self who]
  | found who other bound live =>
    simp only [answer, who, (Resolver.resolve_of_bound _ other bound).trans (if_neg live),
      set_resolver_self who]
  | dead who other bound dead =>
    simp only [answer, who, (Resolver.resolve_of_bound _ other bound).trans (if_pos dead)]
  | allocated who other new => simp only [answer, who, Resolver.resolve_of_new _ other new]

section Effect

variable {s t u : SharedTable} {request : Request} {reply : Reply}

/-- A request that fails changes nothing. -/
theorem Effect.eq_of_refused {why : Fault} (h : Effect s request t (.refused why)) : t = s := by
  cases h <;> rfl

/-- Only a label that no instruction follows is not resolved. -/
theorem Effect.refused_iff {resolver : Nat} {name : Text} {r : Resolver}
    (h : Effect s (.resolve resolver name) t reply) (who : s.resolvers[resolver]? = some r) :
    (∃ why, reply = .refused why) ↔
      registerNumber? name = none ∧
        ∃ address, s.table.lookup? name = some ⟨address, .label⟩ ∧ r.programLength ≤ address := by
  cases h with
  | absent nobody =>
    rw [nobody] at who
    cases who
  | register who' spelled => simp [spelled]
  | allocated who' other new => simp [new]
  | @found _ _ r' binding who' other bound live =>
    obtain rfl := Option.some.inj (who'.symm.trans who)
    refine ⟨nofun, ?_⟩
    rintro ⟨-, address, isLabel, last⟩
    obtain rfl := Option.some.inj (bound.symm.trans isLabel)
    exact absurd ⟨rfl, last⟩ live
  | @dead _ _ r' binding who' other bound dead =>
    obtain rfl := Option.some.inj (who'.symm.trans who)
    refine ⟨fun _ => ⟨other, binding.address, ?_, dead.2⟩, fun _ => ⟨_, rfl⟩⟩
    rw [bound, ← dead.1]

/-! ## What stays -/

/-- The bindings and resolvers of `s` are there in `t`, but a resolver may have allocated more. -/
structure Extends (s t : SharedTable) : Prop where
  lookup : ∀ {name : Text} {binding : Binding}, s.table.lookup? name = some binding →
    t.table.lookup? name = some binding
  resolver : ∀ {resolver : Nat} {r : Resolver}, s.resolvers[resolver]? = some r →
    ∃ r', t.resolvers[resolver]? = some r' ∧ r'.programLength = r.programLength

theorem Extends.refl (s : SharedTable) : Extends s s := ⟨id, fun {_ r} who => ⟨r, who, rfl⟩⟩

theorem Extends.trans (first : Extends s t) (second : Extends t u) : Extends s u where
  lookup bound := second.lookup (first.lookup bound)
  resolver who := by
    obtain ⟨r', who', same⟩ := first.resolver who
    obtain ⟨r'', who'', same'⟩ := second.resolver who'
    exact ⟨r'', who'', same'.trans same⟩

/-- One request takes nothing away. -/
theorem Effect.extends (h : Effect s request t reply) : Extends s t := by
  cases h with
  | defined new => exact ⟨SymbolTable.lookup?_bind_of_new new, (Extends.refl s).resolver⟩
  | made =>
    refine ⟨id, fun {resolver r} who => ⟨r, ?_, rfl⟩⟩
    rw [List.getElem?_append_left (List.getElem?_eq_some_iff.1 who).1, who]
  | @allocated resolver name r who other new =>
    refine ⟨SymbolTable.lookup?_bind_of_new new, fun {resolver' r'} who' => ?_⟩
    by_cases same : resolver = resolver'
    · subst same
      obtain rfl := Option.some.inj (who.symm.trans who')
      have inside := (List.getElem?_eq_some_iff.1 who).1
      exact ⟨_, List.getElem?_set_self inside, rfl⟩
    · exact ⟨r', by rw [List.getElem?_set_ne same, who'], rfl⟩
  | taken | absent | register | found | dead => exact .refl s

/-- No history takes anything away. -/
theorem extends_run (s : SharedTable) (requests : List Request) : Extends s (s.run requests) := by
  induction requests generalizing s with
  | nil => exact .refl s
  | cons request requests ih =>
    rw [run_cons]
    exact (effect_answer s request).extends.trans (ih (s.answer request).1)

/-- A name that has been resolved is resolved in the same way ever after, and without any effect. -/
theorem Effect.again {resolver : Nat} {name : Text} (h : Effect s (.resolve resolver name) t reply)
    (known : resolver < s.resolvers.length) (later : Extends t u) :
    Effect u (.resolve resolver name) u reply := by
  cases h with
  | absent nobody =>
    rw [List.getElem?_eq_none_iff] at nobody
    omega
  | register who spelled =>
    obtain ⟨r', who', -⟩ := later.resolver who
    exact .register who' spelled
  | found who other bound live =>
    obtain ⟨r', who', same⟩ := later.resolver who
    exact .found who' other (later.lookup bound) (same ▸ live)
  | dead who other bound dead =>
    obtain ⟨r', who', same⟩ := later.resolver who
    exact .dead who' other (later.lookup bound) (same ▸ dead)
  | @allocated _ _ r who other new =>
    have inside := (List.getElem?_eq_some_iff.1 who).1
    obtain ⟨r', who', -⟩ := later.resolver (List.getElem?_set_self inside)
    have bound : (s.table.bind name ⟨r.next, .memory⟩).lookup? name =
        some ⟨r.next, .memory⟩ := by rw [SymbolTable.lookup?_bind, if_pos rfl]
    have live : ¬ IsDead r'.programLength ⟨r.next, .memory⟩ := fun dead => by cases dead.1
    exact .found who' other (later.lookup bound) live

end Effect

/-! ## The log of a history -/

/-- A request with what was there before, what it returned, and what was there after it. -/
structure Entry where
  before : SharedTable
  request : Request
  reply : Reply
  after : SharedTable

/-- A memory cell that a resolver has given to a name. -/
structure Allocation where
  resolver : Nat
  name : Text
  address : Int
  deriving DecidableEq

namespace Entry

/-- Whether a name has been defined. -/
def isDefinition (e : Entry) : Bool :=
  match e.request, e.reply with
  | .define _ _, .done => true
  | _, _ => false

/-- The memory cell that has been allocated: the name was not bound before, and is bound after. -/
def allocation? (e : Entry) : Option Allocation :=
  match e.request, e.reply with
  | .resolve resolver name, .address value =>
    if e.before.table.lookup? name = none ∧ e.after.table.lookup? name ≠ none then
      some ⟨resolver, name, value⟩
    else none
  | _, _ => none

end Entry

/-- What has happened in a history, request by request. -/
def log : SharedTable → List Request → List Entry
  | _, [] => []
  | s, request :: rest =>
    ⟨s, request, (s.answer request).2, (s.answer request).1⟩ :: (s.answer request).1.log rest

theorem log_append (s : SharedTable) (requests more : List Request) :
    s.log (requests ++ more) = s.log requests ++ (s.run requests).log more := by
  induction requests generalizing s with
  | nil => rfl
  | cons request requests ih =>
    rw [List.cons_append, log, log, List.cons_append, ih, run_cons]

/-- All allocations of a history, in order. -/
def allocations (entries : List Entry) : List Allocation := entries.filterMap (·.allocation?)

/-- The addresses that one resolver has given out, in order. -/
def givenBy (resolver : Nat) (entries : List Entry) : List Int :=
  ((allocations entries).filter (·.resolver == resolver)).map (·.address)

section Concat

variable (entries : List Entry) {e : Entry}

theorem allocations_concat_of_none (h : e.allocation? = none) :
    allocations (entries ++ [e]) = allocations entries := by
  simp [allocations, h]

theorem allocations_concat_of_some {a : Allocation} (h : e.allocation? = some a) :
    allocations (entries ++ [e]) = allocations entries ++ [a] := by
  simp [allocations, h]

theorem givenBy_concat_of_none (h : e.allocation? = none) (resolver : Nat) :
    givenBy resolver (entries ++ [e]) = givenBy resolver entries := by
  rw [givenBy, allocations_concat_of_none entries h, givenBy]

theorem givenBy_concat_of_some {a : Allocation} (h : e.allocation? = some a) (resolver : Nat) :
    givenBy resolver (entries ++ [e]) =
      givenBy resolver entries ++ if a.resolver = resolver then [a.address] else [] := by
  rw [givenBy, allocations_concat_of_some entries h, List.filter_append, List.map_append, givenBy]
  by_cases same : a.resolver = resolver
  · simp [same]
  · simp [same]

end Concat

/-! ## Nothing is bound without an account -/

/-- The state of a shared table is what its log accounts for. -/
structure Accounts (entries : List Entry) (s : SharedTable) : Prop where
  size : s.table.size = 23 + entries.countP Entry.isDefinition + (allocations entries).length
  bound : ∀ a ∈ allocations entries, s.table.lookup? a.name = some ⟨a.address, .memory⟩
  given : ∀ {resolver : Nat} {r : Resolver}, s.resolvers[resolver]? = some r →
    givenBy resolver entries = (List.range r.allocated).map fun i : Nat => (16 + i : Int)
  nothing : ∀ {resolver : Nat}, s.resolvers[resolver]? = none → givenBy resolver entries = []

theorem accounts_start : Accounts [] start where
  size := SymbolTable.size_initial
  bound a h := by cases h
  given who := by simp [start] at who
  nothing _ := rfl

section Accounts

variable {entries : List Entry} {s t : SharedTable} {e : Entry}

/-- A request that binds nothing needs no account. -/
theorem Accounts.concat_of_same (h : Accounts entries s) (noDefinition : e.isDefinition = false)
    (noAllocation : e.allocation? = none) : Accounts (entries ++ [e]) s where
  size := by
    rw [List.countP_append, allocations_concat_of_none entries noAllocation, h.size]
    simp [noDefinition]
  bound := by
    rw [allocations_concat_of_none entries noAllocation]
    exact h.bound
  given who := by rw [givenBy_concat_of_none entries noAllocation, h.given who]
  nothing nobody := by rw [givenBy_concat_of_none entries noAllocation, h.nothing nobody]

/-- A definition accounts for one name. -/
theorem Accounts.concat_of_definition (h : Accounts entries s) {name : Text}
    (new : s.table.lookup? name = none) (binding : Binding) (definition : e.isDefinition = true)
    (noAllocation : e.allocation? = none) :
    Accounts (entries ++ [e]) { s with table := s.table.bind name binding } where
  size := by
    rw [List.countP_append, allocations_concat_of_none entries noAllocation,
      SymbolTable.size_bind new, h.size]
    simp only [List.countP_singleton, definition, if_true]
    omega
  bound a ha := by
    rw [allocations_concat_of_none entries noAllocation] at ha
    exact SymbolTable.lookup?_bind_of_new new (h.bound a ha)
  given who := by rw [givenBy_concat_of_none entries noAllocation, h.given who]
  nothing nobody := by rw [givenBy_concat_of_none entries noAllocation, h.nothing nobody]

/-- A resolver that has just been made has given out nothing. -/
theorem Accounts.concat_of_resolver (h : Accounts entries s) (programLength : Int)
    (noDefinition : e.isDefinition = false) (noAllocation : e.allocation? = none) :
    Accounts (entries ++ [e])
      { s with resolvers := s.resolvers ++ [{ programLength := programLength }] } where
  size := (h.concat_of_same noDefinition noAllocation).size
  bound := (h.concat_of_same noDefinition noAllocation).bound
  given {resolver r} who := by
    rw [givenBy_concat_of_none entries noAllocation]
    by_cases old : resolver < s.resolvers.length
    · rw [List.getElem?_append_left old] at who
      exact h.given who
    · have nobody : s.resolvers[resolver]? = none := List.getElem?_eq_none (by omega)
      rw [List.getElem?_append_right (by omega)] at who
      -- the new resolver is the only one behind the others
      obtain ⟨-, rfl⟩ := List.getElem?_eq_some_iff.1 who
      rw [h.nothing nobody]
      simp
  nothing {resolver} nobody := by
    rw [givenBy_concat_of_none entries noAllocation]
    rw [List.getElem?_eq_none_iff, List.length_append] at nobody
    exact h.nothing (List.getElem?_eq_none (by omega))

/-- An allocation accounts for one name, and for the next address of its resolver. -/
theorem Accounts.concat_of_allocation (h : Accounts entries s) {resolver : Nat} {name : Text}
    {r : Resolver} (who : s.resolvers[resolver]? = some r) (new : s.table.lookup? name = none)
    (noDefinition : e.isDefinition = false)
    (allocation : e.allocation? = some ⟨resolver, name, r.next⟩) :
    Accounts (entries ++ [e])
      ⟨s.table.bind name ⟨r.next, .memory⟩,
        s.resolvers.set resolver { r with allocated := r.allocated + 1 }⟩ where
  size := by
    rw [List.countP_append, allocations_concat_of_some entries allocation, List.length_append,
      SymbolTable.size_bind new, h.size]
    simp only [List.countP_singleton, noDefinition, List.length_singleton, Bool.false_eq_true,
      if_false]
    omega
  bound a ha := by
    rw [allocations_concat_of_some entries allocation, List.mem_append, List.mem_singleton] at ha
    rcases ha with ha | rfl
    · exact SymbolTable.lookup?_bind_of_new new (h.bound a ha)
    · rw [SymbolTable.lookup?_bind, if_pos rfl]
  given {resolver' r'} who' := by
    rw [givenBy_concat_of_some entries allocation]
    by_cases same : resolver = resolver'
    · subst same
      have inside := (List.getElem?_eq_some_iff.1 who).1
      rw [List.getElem?_set_self inside] at who'
      obtain rfl := Option.some.inj who'
      rw [if_pos rfl, h.given who, List.range_succ, List.map_append]
      rfl
    · rw [List.getElem?_set_ne same] at who'
      rw [if_neg same, List.append_nil, h.given who']
  nothing {resolver'} nobody := by
    have apart : resolver ≠ resolver' := by
      rintro rfl
      have inside := (List.getElem?_eq_some_iff.1 who).1
      rw [List.getElem?_set_self inside] at nobody
      cases nobody
    rw [List.getElem?_set_ne apart] at nobody
    rw [givenBy_concat_of_some entries allocation, if_neg apart, List.append_nil,
      h.nothing nobody]

/-- One request is accounted for. -/
theorem Accounts.answer (h : Accounts entries s) (request : Request) :
    Accounts (entries ++ s.log [request]) (s.answer request).1 := by
  have effect := effect_answer s request
  simp only [log]
  generalize (s.answer request).1 = t at effect ⊢
  generalize (s.answer request).2 = reply at effect ⊢
  cases effect with
  | defined new => exact h.concat_of_definition new _ rfl rfl
  | made => exact h.concat_of_resolver _ rfl rfl
  | allocated who other new =>
    refine h.concat_of_allocation who new rfl ?_
    simp [Entry.allocation?, new, SymbolTable.lookup?_bind]
  | register | found =>
    refine h.concat_of_same rfl ?_
    simp [Entry.allocation?]
  | taken | absent | dead => exact h.concat_of_same rfl rfl

end Accounts

/-- Every history accounts for what it leads to. -/
theorem accounts_run (requests : List Request) :
    Accounts (start.log requests) (start.run requests) := by
  induction requests using List.reverseRecOn with
  | nil => exact accounts_start
  | append_singleton requests request ih =>
    rw [log_append, run_append]
    exact ih.answer request

/-! ## The whole history -/

/-- After any history of requests to a table and its resolvers:

* a name that is bound stays bound in the same way, whatever follows;
* a request that fails changes nothing;
* beyond the 23 predefined names, the table has one name for each definition and each allocation;
* each resolver has allocated the addresses from 16 on, one after the other, and counts them, and
  each of them is bound to the name it was allocated for;
* a name cannot be resolved exactly if it is not spelled like a register and is bound to a label at
  or behind the end of the resolver's program;
* a resolver that is asked for a name again gives the same reply, and the second time nothing
  changes, whatever happened in between. -/
theorem bindings_are_permanent_and_dense (requests : List Request) :
    (∀ name binding, (start.run requests).table.lookup? name = some binding →
      ∀ more, (start.run (requests ++ more)).table.lookup? name = some binding) ∧
    (∀ request why, ((start.run requests).answer request).2 = .refused why →
      ((start.run requests).answer request).1 = start.run requests) ∧
    (start.run requests).table.size = 23 + (start.log requests).countP Entry.isDefinition +
      (allocations (start.log requests)).length ∧
    (∀ resolver r, (start.run requests).resolvers[resolver]? = some r →
      givenBy resolver (start.log requests) =
        (List.range r.allocated).map fun i : Nat => (16 + i : Int)) ∧
    (∀ a ∈ allocations (start.log requests),
      (start.run requests).table.lookup? a.name = some ⟨a.address, .memory⟩) ∧
    (∀ resolver r name, (start.run requests).resolvers[resolver]? = some r →
      ((∃ why, ((start.run requests).answer (.resolve resolver name)).2 = .refused why) ↔
        registerNumber? name = none ∧ ∃ address,
          (start.run requests).table.lookup? name = some ⟨address, .label⟩ ∧
            r.programLength ≤ address)) ∧
    ∀ resolver name more, resolver < (start.run requests).resolvers.length →
      (start.run (requests ++ .resolve resolver name :: more)).answer (.resolve resolver name) =
        (start.run (requests ++ .resolve resolver name :: more),
          ((start.run requests).answer (.resolve resolver name)).2) := by
  have accounts := accounts_run requests
  refine ⟨?_, ?_, accounts.size, fun resolver r => accounts.given, accounts.bound, ?_, ?_⟩
  · intro name binding bound more
    rw [run_append]
    exact (extends_run (start.run requests) more).lookup bound
  · intro request why failed
    have effect := effect_answer (start.run requests) request
    rw [failed] at effect
    exact effect.eq_of_refused
  · intro resolver r name who
    exact (effect_answer (start.run requests) (.resolve resolver name)).refused_iff who
  · intro resolver name more known
    have effect := effect_answer (start.run requests) (.resolve resolver name)
    rw [run_append, run_cons]
    exact (effect.again known (extends_run _ more)).answer_eq

/-- Two resolvers share a table; a label is of use to the second only. -/
def twoResolvers : List Request :=
  [.addResolver 2, .addResolver 9, .define (Text.ascii "LOOP") ⟨5, .label⟩,
    .resolve 0 (Text.ascii "x"), .resolve 1 (Text.ascii "y"), .resolve 1 (Text.ascii "x"),
    .resolve 0 (Text.ascii "LOOP"), .resolve 0 (Text.ascii "z")]

theorem bindings_are_permanent_and_dense_twoResolvers :
    (start.run twoResolvers).resolvers = [⟨2, 2⟩, ⟨9, 1⟩] ∧
      givenBy 0 (start.log twoResolvers) = [16, 17] ∧
      (∀ more, (start.run (twoResolvers ++ more)).table.lookup? (Text.ascii "x") =
        some ⟨16, .memory⟩) ∧
      (∃ why, ((start.run twoResolvers).answer (.resolve 0 (Text.ascii "LOOP"))).2 =
        .refused why) ∧
      ¬ ∃ why, ((start.run twoResolvers).answer (.resolve 1 (Text.ascii "LOOP"))).2 =
        .refused why := by
  have resolvers : (start.run twoResolvers).resolvers = [⟨2, 2⟩, ⟨9, 1⟩] := by decide
  have first : (start.run twoResolvers).resolvers[0]? = some ⟨2, 2⟩ := by rw [resolvers]; rfl
  have second : (start.run twoResolvers).resolvers[1]? = some ⟨9, 1⟩ := by rw [resolvers]; rfl
  have loop : (start.run twoResolvers).table.lookup? (Text.ascii "LOOP") = some ⟨5, .label⟩ := by
    decide
  obtain ⟨permanent, -, -, dense, -, refused_iff, -⟩ :=
    bindings_are_permanent_and_dense twoResolvers
  refine ⟨resolvers, dense 0 _ first, permanent _ _ (by decide), ?_, ?_⟩
  · exact (refused_iff 0 _ _ first).2 ⟨by decide, 5, loop, by decide⟩
  · rw [refused_iff 1 _ _ second]
    rintro ⟨-, address, isLabel, last⟩
    obtain ⟨rfl, -⟩ := Binding.mk.inj (Option.some.inj (loop.symm.trans isLabel))
    exact absurd last (by decide)

end SharedTable
end HackMachine
