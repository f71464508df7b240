import HackMachine.Assembly.Resolver
import HackMachine.Proofs.Text.Numeral

/-!
# Resolving with and without the register spelling

A resolver recognises registers by their spelling before it looks into the table.  For the names
that a statement can contain this is a shortcut and not a rule of its own: a register among them is
written as it is predefined (`predefinedAddress?_of_registerNumber?`), so a table that still has the
predefined bindings gives the same address.  `resolveBound` is the resolver without the shortcut,
and `resolve_eq_resolveBound` says that the two agree.

A new memory cell has to be defined in the table, and a definition can be refused.  This one never is,
since the name has just been looked up in vain (`allocate_of_new`).  -/

namespace HackMachine

/-! ## Registers -/

/-- A sign cannot stand in a name, so an integer that could stand in one is a natural number. -/
theorem natural?_of_integer? {b : UInt8} (valid : isNameByte b) {rest : Text} {i : Int}
    (h : Text.integer? (b :: rest) = some i) :
    ∃ n : Nat, Text.natural? (b :: rest) = some n ∧ i = n := by
  have minus : b ≠ Text.byte '-' := by
    rintro rfl
    exact absurd valid (by decide)
  have plus : b ≠ Text.byte '+' := by
    rintro rfl
    exact absurd valid (by decide)
  have unsigned : Text.takeSign (b :: rest) = (false, b :: rest) := by
    simp [Text.takeSign, minus, plus]
  rw [Text.integer?, unsigned] at h
  obtain ⟨n, hn, fits⟩ := Option.bind_eq_some_iff.1 h
  refine ⟨n, hn, ?_⟩
  simp only [Text.int64?, Bool.false_eq_true, if_false] at fits
  split at fits
  · exact (Option.some.inj fits).symm
  · cases fits

/-- What follows the `R` of a register is its number in decimal. -/
theorem predefinedAddress?_register {n : Nat} (h : n ≤ 15) :
    predefinedAddress? (Text.byte 'R' :: Text.decimal n) = some n := by
  have all : ∀ k : Fin 16, predefinedAddress? (Text.byte 'R' :: Text.decimal k) = some k.val := by
    decide
  exact all ⟨n, by omega⟩

/-- One or two digits without a superfluous zero are the decimal form of their value. -/
theorem decimal_of_natural? {digits : Text} {n : Nat} (short : digits.length ≤ 2)
    (noZero : 1 < digits.length → digits.head? ≠ some (Text.byte '0'))
    (h : Text.natural? digits = some n) (small : n ≤ 15) : Text.decimal n = digits := by
  rw [Text.natural?] at h
  split at h
  case isFalse => cases h
  case isTrue decimal =>
    obtain rfl : Text.decimalValue digits = n := Option.some.inj h
    have digit : ∀ b ∈ digits, Text.isDigit b :=
      List.all_eq_true.1 (Bool.and_eq_true_iff.1 decimal).2
    rcases digits with _ | ⟨a, _ | ⟨b, _ | ⟨c, rest⟩⟩⟩
    · exact absurd decimal (by decide)
    · obtain ⟨k, hk, rfl, -⟩ := Text.exists_of_isDigit (digit a (by simp))
      have all : ∀ k : Fin 10, Text.decimal (Text.decimalValue [UInt8.ofNat (48 + k)]) =
          [UInt8.ofNat (48 + k)] := by decide
      exact all ⟨k, hk⟩
    · obtain ⟨j, hj, rfl, hja⟩ := Text.exists_of_isDigit (digit a (by simp))
      obtain ⟨k, hk, rfl, hkb⟩ := Text.exists_of_isDigit (digit b (by simp))
      have all : ∀ j k : Fin 10, j ≠ 0 →
          Text.decimal (Text.decimalValue [UInt8.ofNat (48 + j), UInt8.ofNat (48 + k)]) =
            [UInt8.ofNat (48 + j), UInt8.ofNat (48 + k)] := by decide
      refine all ⟨j, hj⟩ ⟨k, hk⟩ ?_
      intro zero
      have : j = 0 := congrArg Fin.val zero
      subst this
      exact noZero (by simp) rfl
    · simp at short

/-- The name of a register, if it is one at all, is among the predefined names. -/
theorem predefinedAddress?_of_registerNumber? {name : Text} (valid : isName name) {n : Nat}
    (h : registerNumber? name = some n) : predefinedAddress? name = some n := by
  match name with
  | [] => exact absurd valid (by decide)
  | [_] => simp [registerNumber?] at h
  | letter :: b :: rest =>
    have nameByte : isNameByte b := by
      simp only [isName, List.all_cons, Bool.and_eq_true] at valid
      exact valid.2.2.1
    simp only [registerNumber?] at h
    split at h
    case isTrue => cases h
    case isFalse shape =>
      simp only [Bool.or_eq_true, decide_eq_true_eq, not_or, ne_eq, Decidable.not_not,
        Nat.not_lt] at shape
      split at h
      case isTrue => cases h
      case isFalse zero =>
        simp only [Bool.and_eq_true, decide_eq_true_eq, beq_iff_eq, not_and] at zero
        split at h
        case h_2 => cases h
        case h_1 i hi =>
          obtain ⟨m, hm, rfl⟩ := natural?_of_integer? nameByte hi
          split at h
          case isFalse => cases h
          case isTrue small =>
            obtain rfl : m = n := Option.some.inj h
            have fits : m ≤ 15 := by omega
            rw [shape.1.1, ← decimal_of_natural? shape.2 zero hm fits]
            exact predefinedAddress?_register fits

/-! ## What becomes of a name -/

namespace Resolver

variable (r : Resolver) {table : SymbolTable} {name : Text}

/-- The definition of a memory cell is not refused. -/
theorem allocate_of_new (new : table.lookup? name = none) :
    r.allocate table name =
      .ok ⟨r.next, table.bind name ⟨r.next, .memory⟩, { r with allocated := r.allocated + 1 }⟩ := by
  rw [allocate, SymbolTable.define_of_new new]

theorem resolve_of_register {n : Nat} (spelled : registerNumber? name = some n) :
    r.resolve table name = .ok ⟨n, table, r⟩ := by
  rw [resolve, spelled]

/-- A bound name has the address it is bound to, unless it is a label that no instruction follows. -/
theorem resolve_of_bound {binding : Binding} (other : registerNumber? name = none)
    (bound : table.lookup? name = some binding) :
    r.resolve table name =
      if binding.kind = .label ∧ r.programLength ≤ binding.address then .error (.deadLabel name)
      else .ok ⟨binding.address, table, r⟩ := by
  rw [resolve, other, bound]

theorem resolve_of_new (other : registerNumber? name = none)
    (new : table.lookup? name = none) :
    r.resolve table name =
      .ok ⟨r.next, table.bind name ⟨r.next, .memory⟩, { r with allocated := r.allocated + 1 }⟩ := by
  rw [resolve, other, new]
  exact r.allocate_of_new new

/-! ## The resolver without the shortcut -/

/-- The address of a name by the table alone. -/
def resolveBound (table : SymbolTable) (name : Text) : Except Fault Resolved :=
  match table.lookup? name with
  | some binding =>
    if binding.kind = .label ∧ r.programLength ≤ binding.address then .error (.deadLabel name)
    else .ok ⟨binding.address, table, r⟩
  | none => r.allocate table name

/-- In a table with the predefined bindings, the shortcut changes nothing. -/
theorem resolve_eq_resolveBound (valid : isName name)
    (kept : ∀ n, predefinedAddress? name = some n → table.lookup? name = some ⟨n, .predefined⟩) :
    r.resolve table name = r.resolveBound table name := by
  cases h : registerNumber? name with
  | none =>
    rw [resolve, h]
    rfl
  | some n =>
    have bound := kept n (predefinedAddress?_of_registerNumber? valid h)
    simp [r.resolve_of_register h, resolveBound, bound]

end Resolver
end HackMachine
