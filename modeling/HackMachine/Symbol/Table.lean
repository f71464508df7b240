import HackMachine.Symbol.Basic
import Std.Data.ExtTreeMap

/-!
# Symbol tables

A table maps names to bindings.  A name is bound once: there is no operation that changes or
removes a binding, and `define` refuses a name that has one.

Tables are extensional maps ordered by name, so two tables are equal as soon as they bind the same
names in the same way, whatever history led to them.

* `initial`: the table of the predefined names.
* `lookup?`, `size`, `define`: the operations.
* `symbols`: all bindings as a list, by address and then by name.
-/

namespace HackMachine

/-- What a name is bound to. -/
structure Binding where
  address : Int
  kind : SymbolKind
  deriving DecidableEq

/-- A finite map from names to bindings. -/
structure SymbolTable where
  bindings : Std.ExtTreeMap Text Binding

namespace SymbolTable

/-- The table that binds nothing. -/
def empty : SymbolTable := ⟨∅⟩

/-- The binding of a name. -/
def lookup? (table : SymbolTable) (name : Text) : Option Binding := table.bindings[name]?

/-- Whether a name is bound. -/
def contains (table : SymbolTable) (name : Text) : Bool := table.bindings.contains name

/-- The number of bound names. -/
def size (table : SymbolTable) : Nat := table.bindings.size

/-- Bind a name, whatever it was bound to. -/
def bind (table : SymbolTable) (name : Text) (binding : Binding) : SymbolTable :=
  ⟨table.bindings.insert name binding⟩

/-- The table of the predefined names. -/
def initial : SymbolTable :=
  predefinedNames.foldl (fun table entry => table.bind entry.1 ⟨entry.2, .predefined⟩) empty

/-- Bind a name that has no binding yet.  If it has one, that binding is the error. -/
def define (table : SymbolTable) (name : Text) (binding : Binding) :
    Except Binding SymbolTable :=
  match table.lookup? name with
  | some earlier => .error earlier
  | none => .ok (table.bind name binding)

/-- A name that is not bound can be defined. -/
theorem define_of_new {table : SymbolTable} {name : Text} (h : table.lookup? name = none)
    (binding : Binding) : table.define name binding = .ok (table.bind name binding) := by
  rw [define, h]

theorem lookup?_bind (table : SymbolTable) (name other : Text) (binding : Binding) :
    (table.bind name binding).lookup? other =
      if name = other then some binding else table.lookup? other := by
  simp [lookup?, bind, Std.ExtTreeMap.getElem?_insert]

theorem size_bind {table : SymbolTable} {name : Text} (h : table.lookup? name = none)
    (binding : Binding) : (table.bind name binding).size = table.size + 1 := by
  have fresh : name ∉ table.bindings := by simpa [lookup?] using h
  simp [size, bind, Std.ExtTreeMap.size_insert, fresh]

/-- All symbols, by address and then by name. -/
def symbols (table : SymbolTable) : List Symbol :=
  (table.bindings.toList.map fun entry => ⟨entry.1, entry.2.address, entry.2.kind⟩).mergeSort
    Symbol.listedBefore

end SymbolTable
end HackMachine
