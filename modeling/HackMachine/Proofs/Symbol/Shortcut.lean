import HackMachine.Proofs.Symbol.History
import HackMachine.Proofs.Symbol.Resolver

/-!
# The register spelling as a shortcut

A resolver that sees the name of a register gives its number and does not look into the table at
all.  This could go wrong in two ways.  The table could have another opinion about that name, and a
text could be taken for a register that the table does not know, since `registerNumber?` also
accepts spellings such as `R+5`.

The first cannot happen to a table that has come about by requests.  The predefined names are bound
from the start, and no request changes a binding (`Keeps.answer`); an attempt to define `R3` anew is
refused.  The second cannot happen to a name that stands in a program, since a sign is not part of
a name.

So nothing would change if names were resolved by the table alone, neither for one name nor over a
whole history of requests (`register_spelling_is_shortcut`).

## Two ways to resolve

`answerBy` and `logBy` are `answer` and `log` with the way to resolve names as a parameter
(`answerBy_resolve`).
-/

namespace HackMachine
namespace SharedTable

/-! ## Histories with another way to resolve -/

/-- Carry out a request, where names are resolved by `resolve`. -/
def answerBy (resolve : Resolver → SymbolTable → Text → Except Fault Resolver.Resolved)
    (s : SharedTable) : Request → SharedTable × Reply
  | .define name binding => s.answer (.define name binding)
  | .addResolver programLength => s.answer (.addResolver programLength)
  | .resolve resolver name =>
    match s.resolvers[resolver]? with
    | none => (s, .noResolver)
    | some r =>
      match resolve r s.table name with
      | .error why => (s, .refused why)
      | .ok found =>
        (⟨found.table, s.resolvers.set resolver found.resolver⟩, .address found.address)

/-- What happens in a history, request by request, where names are resolved by `resolve`. -/
def logBy (resolve : Resolver → SymbolTable → Text → Except Fault Resolver.Resolved) :
    SharedTable → List Request → List Entry
  | _, [] => []
  | s, request :: rest =>
    ⟨s, request, (s.answerBy resolve request).2, (s.answerBy resolve request).1⟩ ::
      logBy resolve (s.answerBy resolve request).1 rest

theorem answerBy_resolve (s : SharedTable) (request : Request) :
    s.answerBy Resolver.resolve request = s.answer request := by
  cases request <;> rfl

/-- Two ways to resolve that agree on the name asked for give the same answer. -/
theorem answerBy_congr {resolve resolve' : Resolver → SymbolTable → Text →
      Except Fault Resolver.Resolved} {s : SharedTable} {request : Request}
    (same : ∀ resolver name, request = .resolve resolver name →
      ∀ r, resolve r s.table name = resolve' r s.table name) :
    s.answerBy resolve request = s.answerBy resolve' request := by
  cases request with
  | define name binding => rfl
  | addResolver programLength => rfl
  | resolve resolver name =>
    simp only [answerBy]
    cases s.resolvers[resolver]? with
    | none => rfl
    | some r => simp only [same resolver name rfl r]

/-! ## The predefined names stay -/

/-- The predefined names are still bound as they were at the start. -/
def Keeps (table : SymbolTable) : Prop :=
  ∀ name n, predefinedAddress? name = some n → table.lookup? name = some ⟨n, .predefined⟩

theorem keeps_start : Keeps start.table := by
  intro name n predefined
  rw [start, SymbolTable.lookup?_initial, predefined]
  rfl

/-- No request touches the predefined names. -/
theorem Keeps.answer {s : SharedTable} (h : Keeps s.table) (request : Request) :
    Keeps (s.answer request).1.table := by
  intro name n predefined
  exact (effect_answer s request).extends.lookup (h name n predefined)

theorem keeps_run (requests : List Request) : Keeps (start.run requests).table := by
  intro name n predefined
  exact (extends_run start requests).lookup (keeps_start name n predefined)

/-- In such a table a name of a program is resolved by the table as it is by its spelling. -/
theorem Keeps.resolve {table : SymbolTable} (h : Keeps table) (r : Resolver) {name : Text}
    (valid : isName name) : r.resolve table name = r.resolveBound table name :=
  r.resolve_eq_resolveBound valid (h name)

/-- The history goes on in the same way if names are resolved by the table alone. -/
theorem Keeps.logBy {s : SharedTable} (h : Keeps s.table) {requests : List Request}
    (valid : ∀ resolver name, .resolve resolver name ∈ requests → isName name) :
    s.logBy Resolver.resolveBound requests = s.log requests := by
  induction requests generalizing s with
  | nil => rfl
  | cons request requests ih =>
    have first : s.answerBy Resolver.resolveBound request = s.answer request := by
      rw [← answerBy_resolve]
      apply answerBy_congr
      rintro resolver name rfl r
      exact (h.resolve r (valid resolver name List.mem_cons_self)).symm
    have others : ∀ resolver name, .resolve resolver name ∈ requests → isName name :=
      fun resolver name later => valid resolver name (List.mem_cons_of_mem _ later)
    rw [SharedTable.logBy, log, first, ih (h.answer request) others]

/-- Take any table that has come about by requests, and any resolver on it.  A name that can stand
in a program is resolved in the same way by its spelling and by the table alone: to the same address
or to none, and with the same table and the same count of memory cells after it.

Therefore a history in which only such names are resolved goes the same way with resolvers that do
not know the spelling of a register: every request returns the same and leaves the same behind. -/
theorem register_spelling_is_shortcut (requests : List Request) :
    (∀ (r : Resolver) (name : Text), isName name →
      r.resolve (start.run requests).table name =
        r.resolveBound (start.run requests).table name) ∧
    ((∀ resolver name, .resolve resolver name ∈ requests → isName name) →
      start.logBy Resolver.resolveBound requests = start.log requests) :=
  ⟨fun r _ valid => (keeps_run requests).resolve r valid, fun valid => keeps_start.logBy valid⟩

/-- Somebody tries to define a register anew before it is used. -/
def registerTaken : List Request :=
  [.addResolver 4, .define (Text.ascii "R3") ⟨99, .label⟩, .resolve 0 (Text.ascii "x"),
    .resolve 0 (Text.ascii "R3"), .resolve 0 (Text.ascii "R16")]

theorem register_spelling_is_shortcut_registerTaken :
    ((⟨4, 7⟩ : Resolver).resolveBound (start.run registerTaken).table (Text.ascii "R3")).map
        (fun found => (found.address, found.resolver)) = .ok (3, ⟨4, 7⟩) ∧
      (start.logBy Resolver.resolveBound registerTaken).map (·.reply) =
        [.done, .refused (.duplicateLabel (Text.ascii "R3") ⟨3, .predefined⟩), .address 16,
          .address 3, .address 17] := by
  obtain ⟨one, all⟩ := register_spelling_is_shortcut registerTaken
  have valid : ∀ resolver name, .resolve resolver name ∈ registerTaken → isName name := by
    intro resolver name asked
    simp only [registerTaken, List.mem_cons, Request.resolve.injEq, reduceCtorEq, false_or,
      List.not_mem_nil, or_false] at asked
    rcases asked with ⟨-, rfl⟩ | ⟨-, rfl⟩ | ⟨-, rfl⟩ <;> decide
  refine ⟨?_, ?_⟩
  · rw [← one ⟨4, 7⟩ (Text.ascii "R3") (by decide)]
    rfl
  · rw [all valid]
    decide

/-- Behind the `R` a sign is taken as part of the number, so the two ways differ on a text that is
not a name. -/
example : ((⟨0, 0⟩ : Resolver).resolve .initial (Text.ascii "R+5")).map (·.address) = .ok 5 ∧
    ((⟨0, 0⟩ : Resolver).resolveBound .initial (Text.ascii "R+5")).map (·.address) = .ok 16 ∧
    isName (Text.ascii "R+5") = false :=
  ⟨rfl, rfl, rfl⟩

end SharedTable
end HackMachine
