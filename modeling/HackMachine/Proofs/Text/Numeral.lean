import HackMachine.Text.Numeral

/-!
# Writing and reading numerals

A number written in decimal is read back as itself (`natural?_decimal`), and its digits are digits
(`isDigit_of_mem_decimal`), so they are nothing else: no blank, no sign, no line feed.
-/

namespace HackMachine
namespace Text

theorem isDigit_iff {b : UInt8} : isDigit b ↔ 48 ≤ b.toNat ∧ b.toNat ≤ 57 := by
  simp only [isDigit, Bool.and_eq_true, decide_eq_true_eq, UInt8.le_iff_toNat_le]
  exact Iff.rfl

/-- A digit is the byte of one of ten values. -/
theorem exists_of_isDigit {b : UInt8} (h : isDigit b) :
    ∃ k < 10, b = UInt8.ofNat (48 + k) ∧ digitValue b = k := by
  have bounds := isDigit_iff.1 h
  refine ⟨b.toNat - 48, by omega, ?_, rfl⟩
  rw [show 48 + (b.toNat - 48) = b.toNat by omega, UInt8.ofNat_toNat]

/-- The byte of a digit character is a digit of the same value. -/
theorem isDigit_byte {c : Char} (h : c.isDigit) :
    isDigit (byte c) ∧ digitValue (byte c) = c.toNat - '0'.toNat := by
  have bounds : 48 ≤ c.toNat ∧ c.toNat ≤ 57 := by
    simpa [Char.isDigit, UInt32.le_iff_toNat_le] using h
  have value : (byte c).toNat = c.toNat := by
    have : c.val.toNat = c.toNat := rfl
    simp only [byte, Char.toUInt8, UInt32.toNat_toUInt8]
    omega
  constructor
  · rw [isDigit_iff, value]
    exact bounds
  · simp only [digitValue, value]
    rfl

theorem isDigit_of_mem_decimal {n : Nat} {b : UInt8} (h : b ∈ decimal n) : isDigit b := by
  obtain ⟨c, hc, rfl⟩ := List.mem_map.1 h
  exact (isDigit_byte (Nat.isDigit_of_mem_toDigits (by decide) (by decide) hc)).1

theorem decimal_ne_nil (n : Nat) : decimal n ≠ [] := by
  simp [decimal, Nat.toDigits_ne_nil]

theorem isDecimal_decimal (n : Nat) : isDecimal (decimal n) := by
  have digits : (decimal n).all isDigit := List.all_eq_true.2 fun b => isDigit_of_mem_decimal
  simp [isDecimal, decimal_ne_nil, digits]

/-- The digits of a number denote it. -/
theorem decimalValue_decimal (n : Nat) : decimalValue (decimal n) = n := by
  have values : (decimal n).map digitValue =
      (Nat.toDigits 10 n).map fun c => c.toNat - '0'.toNat := by
    rw [decimal, List.map_map]
    apply List.map_congr_left
    intro c hc
    exact (isDigit_byte (Nat.isDigit_of_mem_toDigits (by decide) (by decide) hc)).2
  rw [decimalValue, valueOf, values, List.foldl_map, ← Nat.ofDigitChars_eq_foldl]
  exact Nat.ofDigitChars_toDigits (by decide) (by decide)

/-- A numeral is one digit or more, and its value is that of the digits. -/
theorem natural?_eq_some_iff {t : Text} {n : Nat} :
    natural? t = some n ↔ isDecimal t ∧ decimalValue t = n := by
  unfold natural?
  split
  · next numeral => simp [numeral]
  · next other => simp [other]

theorem isDecimal_cons {b : UInt8} {t : Text} (h : isDecimal (b :: t)) : isDigit b := by
  rw [isDecimal, Bool.and_eq_true, List.all_cons, Bool.and_eq_true] at h
  exact h.2.1

/-- A number written in decimal is read back. -/
theorem natural?_decimal (n : Nat) : natural? (decimal n) = some n := by
  rw [natural?, if_pos (isDecimal_decimal n), decimalValue_decimal]

end Text
end HackMachine
