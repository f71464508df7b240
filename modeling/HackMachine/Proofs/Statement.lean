import HackMachine.Proofs.Text.Numeral
import HackMachine.Statement

/-!
# What reading a statement guarantees

`parse_eq_ok` takes a statement that was read apart into the reader that accepted it and the text
that reader was given.  In particular an operand that is read as a name is a name: no other text gets
past the reader (`isName_of_parse_symbol`).

For labels and addresses the text can be told from the statement: `parse_eq_label_iff`,
`parse_eq_symbol_iff` and `parse_eq_literal_iff` say which texts are read as a given one.

What reading reports is about the shape of a statement only (`isShape_of_parse`).  That a field spells
no computation, destination or jump is never found out here.
-/

namespace HackMachine

/-- Whether a malformation concerns the shape of a statement, and not what its fields spell. -/
def Malformation.isShape : Malformation → Bool
  | .computation _ | .destination _ | .jump _ => false
  | .reservedBits _ | .unnamedControl _ | .idleMemoryBit _ => false
  | _ => true

namespace Statement

/-! ## The readers -/

/-- A name is not empty, and it does not start with a digit. -/
theorem exists_cons_of_isName {t : Text} (h : isName t) :
    ∃ b rest, t = b :: rest ∧ Text.isDigit b = false := by
  cases t with
  | nil => exact absurd h (by decide)
  | cons b rest =>
    rw [isName, Bool.and_eq_true, Bool.not_eq_true'] at h
    exact ⟨b, rest, rfl, h.1⟩

/-- Behind the parenthesis of a label stand its name and the other parenthesis. -/
theorem readLabel_eq_ok_iff {t name : Text} :
    readLabel t = .ok name ↔ t = name ++ [Text.byte ')'] ∧ isName name := by
  unfold readLabel
  constructor
  · intro h
    split at h
    · cases h
    · next shape =>
      rw [not_or, Decidable.not_not] at shape
      obtain ⟨front, rfl⟩ := List.getLast?_eq_some_iff.1 shape.2
      rw [List.dropLast_concat] at h
      split at h
      · next valid =>
        cases h
        exact ⟨rfl, valid⟩
      · cases h
  · rintro ⟨rfl, valid⟩
    obtain ⟨b, rest, rfl, -⟩ := exists_cons_of_isName valid
    have shape : ¬ ((b :: rest ++ [Text.byte ')']).length < 2 ∨
        (b :: rest ++ [Text.byte ')']).getLast? ≠ some (Text.byte ')')) := by
      rw [List.getLast?_concat, List.length_append]
      simp
    rw [if_neg shape, List.dropLast_concat, if_pos valid]

/-- An operand is read as a name if it is one. -/
theorem readOperand_eq_symbol_iff {t name : Text} :
    readOperand t = .ok (.symbol name) ↔ t = name ∧ isName name := by
  unfold readOperand
  constructor
  · intro h
    split at h
    · cases h
    · split at h
      · split at h
        · cases h
        · split at h <;> cases h
      · split at h
        · next valid =>
          cases h
          exact ⟨rfl, valid⟩
        · cases h
  · rintro ⟨rfl, valid⟩
    obtain ⟨b, rest, rfl, noDigit⟩ := exists_cons_of_isName valid
    simp [noDigit, valid]

/-- A numeral is read as a literal if it fits 64 bits. -/
theorem readOperand_of_natural? {t : Text} {value : Nat} (h : Text.natural? t = some value) :
    readOperand t =
      if value < Text.int64Bound then .ok (.literal value) else .error (.hugeLiteral t) := by
  cases t with
  | nil => cases h
  | cons b rest =>
    have digit := Text.isDecimal_cons (Text.natural?_eq_some_iff.1 h).1
    rw [readOperand, if_pos digit, h]

theorem readOperand_eq_literal_iff {t : Text} {value : Nat} :
    readOperand t = .ok (.literal value) ↔
      Text.natural? t = some value ∧ value < Text.int64Bound := by
  constructor
  · intro h
    unfold readOperand at h
    split at h
    · cases h
    · split at h
      · split at h
        · cases h
        · next number =>
          split at h
          · next fits =>
            cases h
            exact ⟨number, fits⟩
          · cases h
      · split at h <;> cases h
  · rintro ⟨number, fits⟩
    rw [readOperand_of_natural? number, if_pos fits]

/-- A numeral that does not fit 64 bits is reported as such, and nothing else is. -/
theorem readOperand_eq_huge_iff {t digits : Text} :
    readOperand t = .error (.hugeLiteral digits) ↔
      t = digits ∧ ∃ value, Text.natural? t = some value ∧ Text.int64Bound ≤ value := by
  constructor
  · intro h
    unfold readOperand at h
    split at h
    · cases h
    · split at h
      · split at h
        · cases h
        · next value number =>
          split at h
          · cases h
          · next huge =>
            cases h
            exact ⟨rfl, value, number, Nat.le_of_not_lt huge⟩
      · split at h <;> cases h
  · rintro ⟨rfl, value, number, huge⟩
    rw [readOperand_of_natural? number, if_neg (Nat.not_lt.2 huge)]

/-- A compute statement that is read consists of the three fields that were found. -/
theorem readCompute_eq_ok {t : Text} {op : Operation} (h : readCompute t = .ok op) :
    ∃ dest rest comp jump, readDestination t.withoutBlanks = .ok (dest, rest) ∧
      readComputation rest = .ok (comp, jump) ∧ op = .compute dest comp jump := by
  unfold readCompute at h
  cases hd : readDestination t.withoutBlanks with
  | error why =>
    rw [hd] at h
    cases h
  | ok front =>
    obtain ⟨dest, rest⟩ := front
    rw [hd] at h
    cases hc : readComputation rest with
    | error why =>
      simp only [bind, Except.bind, hc] at h
      cases h
    | ok back =>
      obtain ⟨comp, jump⟩ := back
      simp only [bind, Except.bind, hc] at h
      cases h
      exact ⟨dest, rest, comp, jump, rfl, hc, rfl⟩

/-! ## The statement -/

/-- A statement that is read is a label, an address or a computation, by its first byte. -/
theorem parse_eq_ok {t : Text} {statement : Statement} (h : parse t = .ok statement) :
    (∃ rest name, t = Text.byte '(' :: rest ∧ readLabel rest = .ok name ∧
        statement = .label name) ∨
      (∃ rest operand, t = Text.byte '@' :: rest ∧ readOperand rest = .ok operand ∧
        statement = .operation (.address operand)) ∨
      ∃ op, readCompute t = .ok op ∧ statement = .operation op := by
  unfold parse at h
  split at h
  · cases h
  · next b rest =>
    split at h
    · next first =>
      cases hl : readLabel rest with
      | error fault =>
        rw [hl] at h
        cases h
      | ok name =>
        rw [hl] at h
        cases h
        exact .inl ⟨rest, name, by rw [first], hl, rfl⟩
    · split at h
      · next first =>
        cases ho : readOperand rest with
        | error fault =>
          rw [ho] at h
          cases h
        | ok operand =>
          rw [ho] at h
          cases h
          exact .inr (.inl ⟨rest, operand, by rw [first], ho, rfl⟩)
      · cases hc : readCompute (b :: rest) with
        | error why =>
          rw [hc] at h
          cases h
        | ok op =>
          rw [hc] at h
          cases h
          exact .inr (.inr ⟨op, rfl, rfl⟩)

/-! ## The text of a label and of an address -/

theorem parse_label (t : Text) :
    parse (Text.byte '(' :: t) = (readLabel t).map Statement.label := rfl

theorem parse_address (t : Text) :
    parse (Text.byte '@' :: t) =
      (readOperand t).map fun operand => .operation (.address operand) := rfl

/-- What starts with neither a parenthesis nor an at sign is read as a computation. -/
theorem parse_compute {b : UInt8} (noLabel : b ≠ Text.byte '(') (noAddress : b ≠ Text.byte '@')
    (t : Text) :
    parse (b :: t) = ((readCompute (b :: t)).map Statement.operation).mapError .malformed := by
  rw [parse, if_neg noLabel, if_neg noAddress]

/-- A label is its name between parentheses. -/
theorem parse_eq_label_iff {t name : Text} :
    parse t = .ok (.label name) ↔
      t = Text.byte '(' :: (name ++ [Text.byte ')']) ∧ isName name := by
  constructor
  · intro h
    rcases parse_eq_ok h with ⟨rest, name', rfl, hread, same⟩ | ⟨_, _, -, -, other⟩ |
      ⟨op, -, other⟩
    · cases same
      obtain ⟨rfl, valid⟩ := readLabel_eq_ok_iff.1 hread
      exact ⟨rfl, valid⟩
    · cases other
    · cases other
  · rintro ⟨rfl, valid⟩
    rw [parse_label, readLabel_eq_ok_iff.2 ⟨rfl, valid⟩]
    rfl

/-- The operand of an address statement is what stands behind the at sign. -/
theorem parse_eq_address_iff {t : Text} {operand : AddressOperand} :
    parse t = .ok (.operation (.address operand)) ↔
      ∃ rest, t = Text.byte '@' :: rest ∧ readOperand rest = .ok operand := by
  constructor
  · intro h
    rcases parse_eq_ok h with ⟨_, _, -, -, other⟩ | ⟨rest, operand', rfl, hread, same⟩ |
      ⟨op, hread, same⟩
    · cases other
    · cases same
      exact ⟨rest, rfl, hread⟩
    · obtain ⟨_, _, _, _, -, -, rfl⟩ := readCompute_eq_ok hread
      cases same
  · rintro ⟨rest, rfl, hread⟩
    rw [parse_address, hread]
    rfl

theorem parse_eq_symbol_iff {t name : Text} :
    parse t = .ok (.operation (.address (.symbol name))) ↔
      t = Text.byte '@' :: name ∧ isName name := by
  rw [parse_eq_address_iff]
  constructor
  · rintro ⟨rest, rfl, hread⟩
    obtain ⟨rfl, valid⟩ := readOperand_eq_symbol_iff.1 hread
    exact ⟨rfl, valid⟩
  · rintro ⟨rfl, valid⟩
    exact ⟨name, rfl, readOperand_eq_symbol_iff.2 ⟨rfl, valid⟩⟩

/-- The operand of an address statement is a name unless it is a literal. -/
theorem isName_of_parse_symbol {t name : Text}
    (h : parse t = .ok (.operation (.address (.symbol name)))) : isName name :=
  (parse_eq_symbol_iff.1 h).2

theorem parse_eq_literal_iff {t : Text} {value : Nat} :
    parse t = .ok (.operation (.address (.literal value))) ↔
      ∃ rest, t = Text.byte '@' :: rest ∧ Text.natural? rest = some value ∧
        value < Text.int64Bound := by
  simp only [parse_eq_address_iff, readOperand_eq_literal_iff]

/-! ## Texts that are no statement -/

theorem readLabel_ne_huge (t digits : Text) : readLabel t ≠ .error (.hugeLiteral digits) := by
  unfold readLabel
  intro h
  split at h
  · cases h
  · split at h <;> cases h

/-- The only literals that are refused for their size are those beyond 64 bits. -/
theorem parse_eq_huge_iff {t digits : Text} :
    parse t = .error (.hugeLiteral digits) ↔
      t = Text.byte '@' :: digits ∧
        ∃ value, Text.natural? digits = some value ∧ Text.int64Bound ≤ value := by
  constructor
  · intro h
    unfold parse at h
    split at h
    · cases h
    · next b rest =>
      split at h
      · cases hl : readLabel rest <;> rw [hl] at h <;> cases h
        exact absurd hl (readLabel_ne_huge rest digits)
      · split at h
        · next first =>
          cases ho : readOperand rest <;> rw [ho] at h <;> cases h
          obtain ⟨rfl, huge⟩ := readOperand_eq_huge_iff.1 ho
          exact ⟨by rw [first], huge⟩
        · cases hc : readCompute (b :: rest) <;> rw [hc] at h <;> cases h
  · rintro ⟨rfl, huge⟩
    rw [parse_address, readOperand_eq_huge_iff.2 ⟨rfl, huge⟩]
    rfl

theorem isShape_of_readCompute {t : Text} {why : Malformation} (h : readCompute t = .error why) :
    why.isShape := by
  unfold readCompute at h
  cases hd : readDestination t.withoutBlanks with
  | error why' =>
    rw [hd] at h
    cases h
    unfold readDestination at hd
    split at hd <;> cases hd
    rfl
  | ok front =>
    obtain ⟨dest, rest⟩ := front
    rw [hd] at h
    cases hc : readComputation rest with
    | error why' =>
      simp only [bind, Except.bind, hc] at h
      cases h
      unfold readComputation at hc
      split at hc <;> cases hc <;> rfl
    | ok back =>
      simp only [bind, Except.bind, hc] at h
      cases h

theorem isShape_of_readLabel {t : Text} {why : Malformation}
    (h : readLabel t = .error (.malformed why)) : why.isShape := by
  unfold readLabel at h
  split at h
  · cases h
    rfl
  · split at h <;> cases h
    rfl

theorem isShape_of_readOperand {t : Text} {why : Malformation}
    (h : readOperand t = .error (.malformed why)) : why.isShape := by
  unfold readOperand at h
  split at h
  · cases h
    rfl
  · split at h
    · split at h
      · cases h
        rfl
      · split at h <;> cases h
    · split at h <;> cases h
      rfl

/-- A text that is no statement has the wrong shape, or is a literal beyond 64 bits. -/
theorem isShape_of_parse {t : Text} {why : Malformation}
    (h : parse t = .error (.malformed why)) : why.isShape := by
  unfold parse at h
  split at h
  · cases h
    rfl
  · next b rest =>
    split at h
    · cases hl : readLabel rest <;> rw [hl] at h <;> cases h
      exact isShape_of_readLabel hl
    · split at h
      · cases ho : readOperand rest <;> rw [ho] at h <;> cases h
        exact isShape_of_readOperand ho
      · cases hc : readCompute (b :: rest) <;> rw [hc] at h <;> cases h
        exact isShape_of_readCompute hc

end Statement
end HackMachine
