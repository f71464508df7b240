import HackMachine.Proofs.Assembly.Correctness
import HackMachine.Proofs.Grammar
import HackMachine.Proofs.Source

/-!
# Address literals

The operand of an address statement may be a numeral.  It may have any number of digits and of
leading zeros, and only its value counts: up to 32767 it is loaded, and above that it is out of
range.

That a number is out of range is found out in one of two places.  A statement holds a number of 64
bits, so a numeral from 9223372036854775808 on is refused when the statement is read, in the first
pass.  Below that, a number that does not fit an instruction is refused when the instruction is
encoded, in the second pass.  The class of the fault is the same, and the value is never cut off.

An operand that starts with a digit is a numeral or nothing.  If any other byte follows, it is
malformed, and neither a shorter numeral nor a name is read from it.

* `assemble_singleton_of_error`, `assemble_singleton_of_operation`: what becomes of a program of one
  line.
* `add_literal_of_le`, `add_literal_of_lt`: the word of a number, on both sides of the limit.
* `parse_numeral`, `parse_of_digit`: operands that start with a digit.
-/

namespace HackMachine

/-! ## Programs of one line -/

namespace Assembler

variable (a : Assembler) (line : SourceLine)

/-- A single line that is no statement is refused in the first pass. -/
theorem assemble_singleton_of_error {fault : Statement.Fault}
    (h : Statement.parse line.text = .error fault) :
    a.assemble [line] =
      (⟨.resolvingLabels, .initial, none⟩, .error ⟨line, .ofStatement fault⟩) := by
  have first : Layout.start.addLines [line] = (Layout.start, some ⟨line, .ofStatement fault⟩) := by
    simp only [Layout.addLines, Layout.addLine, h]
  exact assemble_of_first_fault first a

/-- A single line with an instruction comes through the first pass, and the second pass has nothing
else to take. -/
theorem assemble_singleton_of_operation {op : Operation}
    (h : Statement.parse line.text = .ok (.operation op)) :
    a.assemble [line] =
      match (Emission.start ⟨.initial, 1⟩).add ⟨line, op⟩ with
      | (e, some fault) => (⟨.encodingInstructions, e.table, some e.resolver⟩, .error fault)
      | (e, none) => (⟨.done, e.table, some e.resolver⟩, .ok ⟨e.code, e.table.symbols⟩) := by
  have first : Layout.start.addLines [line] = (⟨.initial, 1⟩, none) := by
    simp only [Layout.addLines, Layout.addLine, h]
    rfl
  have step := Emission.addLine_of_operation (SourceLine.operation?_eq_some_iff.2 h)
    (Emission.start ⟨.initial, 1⟩)
  rcases added : (Emission.start ⟨.initial, 1⟩).add ⟨line, op⟩ with ⟨e, _ | fault⟩
  · exact assemble_of_passes first (scan_cons_of_none (step.trans added) []) a
  · exact assemble_of_second_fault first (scan_cons_of_some (step.trans added) []) a

end Assembler

/-! ## The word of a number -/

namespace Emission

variable {value : Nat}

theorem encode_literal (e : Emission) (value : Nat) :
    e.encode (.address (.literal value)) = (e, addressWord value) := rfl

theorem addressWord_of_le (h : value ≤ 32767) :
    ∃ w, addressWord value = .ok w ∧ w.toNat = value := by
  cases found : addressWord value with
  | ok w =>
    obtain ⟨a, same, rfl⟩ := addressWord_eq_ok found
    have loads : (Instruction.load a).encode.toNat = a.val := Format.toNat_addressWord a
    exact ⟨_, rfl, by omega⟩
  | error fault =>
    have := (addressWord_eq_error found).1
    omega

theorem addressWord_of_lt (h : 32767 < value) :
    addressWord value = .error (.addressOutOfRange value) := by
  cases found : addressWord value with
  | ok w =>
    obtain ⟨a, same, -⟩ := addressWord_eq_ok found
    have : a.val < 32768 := a.isLt
    omega
  | error fault => rw [(addressWord_eq_error found).2]

/-- A number up to the limit is emitted as the word that is its value. -/
theorem add_literal_of_le (h : value ≤ 32767) (e : Emission) (line : SourceLine) :
    ∃ w, w.toNat = value ∧ e.add ⟨line, .address (.literal value)⟩ =
      ({ e with code := e.code.push ⟨w, line.number⟩ }, none) := by
  obtain ⟨w, isWord, toNat⟩ := addressWord_of_le h
  exact ⟨w, toNat, by rw [add, encode_literal, isWord]⟩

/-- A number above the limit is a fault of its line. -/
theorem add_literal_of_lt (h : 32767 < value) (e : Emission) (line : SourceLine) :
    e.add ⟨line, .address (.literal value)⟩ = (e, some ⟨line, .addressOutOfRange value⟩) := by
  rw [add, encode_literal, addressWord_of_lt h]

end Emission

/-! ## Operands that start with a digit -/

namespace Statement

/-- A numeral is read as its value, unless that does not fit 64 bits. -/
theorem parse_numeral {digits : Text} {value : Nat} (h : Grammar.IsNumeral digits value) :
    parse (Text.byte '@' :: digits) =
      if value < 9223372036854775808 then .ok (.operation (.address (.literal value)))
      else .error (.hugeLiteral digits) := by
  rw [parse_address, readOperand_of_natural? (Grammar.natural?_iff.2 h)]
  change Except.map _ (if value < 9223372036854775808 then _ else _) = _
  split <;> rfl

/-- An operand that starts with a digit and goes on with another byte is malformed. -/
theorem parse_of_digit {d : UInt8} {rest : Text} (hd : Text.isDigit d)
    (other : ∃ b ∈ rest, Text.isDigit b = false) :
    parse (Text.byte '@' :: d :: rest) = .error (.malformed (.constant (d :: rest))) := by
  have noNumeral : Text.natural? (d :: rest) = none := by
    obtain ⟨b, hb, noDigit⟩ := other
    rw [Text.natural?, if_neg]
    intro decimal
    have all := List.all_eq_true.1 (Bool.and_eq_true_iff.1 decimal).2
    rw [all b (List.mem_cons_of_mem d hb)] at noDigit
    cases noDigit
  rw [parse_address, readOperand, if_pos hd, noNumeral]
  rfl

end Statement

/-- A line with a numeral is read as it stands, if it is within the limit. -/
theorem isPlain_numeral {digits : Text} {value : Nat} (h : Grammar.IsNumeral digits value)
    (short : digits.length + 1 < Source.lineLimit) : Source.IsPlain (Text.byte '@' :: digits) := by
  have digit : ∀ b ∈ digits, 48 ≤ b.toNat ∧ b.toNat ≤ 57 := by
    obtain ⟨decimal, -⟩ := Text.natural?_eq_some_iff.1 (Grammar.natural?_iff.2 h)
    intro b hb
    exact Text.isDigit_iff.1 (List.all_eq_true.1 (Bool.and_eq_true_iff.1 decimal).2 b hb)
  have visible : ∀ b ∈ Text.byte '@' :: digits, Text.isVisible b := by
    intro b hb
    rcases List.mem_cons.1 hb with rfl | hb
    · rfl
    · have bounds := digit b hb
      exact Text.isVisible_iff.2 (by omega)
  have noSlash : Text.byte '/' ∉ Text.byte '@' :: digits := by
    intro hb
    rcases List.mem_cons.1 hb with same | hb
    · cases same
    · exact absurd (digit _ hb) (by decide)
  exact ⟨Source.clean_of_visible visible noSlash, List.cons_ne_nil _ _,
    fun hb => absurd (visible _ hb) (by decide), short⟩

/-- Address literals are read by value.  Consider a program of one line, an at sign and an operand.
The line is one that has been cleaned, so a blank or a comment behind a numeral is not part of it.

* A numeral up to 32767, however it is written, gives the one word that is its value.
* Any greater numeral is out of range on that line; from 9223372036854775808 on this is found out in
  the first pass, and below that in the second.
* The same happens if the line is given as a text that is not too long for one line.
* An operand that is a digit and then anything in which not all bytes are digits is malformed. -/
theorem literal_is_read_by_value (a : Assembler) (number : Int) :
    (∀ digits value, Grammar.IsNumeral digits value →
      (value ≤ 32767 → ∃ p, assembleLines [⟨number, Text.byte '@' :: digits⟩] = .ok p ∧
        p.words.toList.map (·.toNat) = [value]) ∧
      (32767 < value → ∃ fault,
        a.assemble [⟨number, Text.byte '@' :: digits⟩] =
          (if value < 9223372036854775808 then ⟨.encodingInstructions, .initial, some ⟨1, 0⟩⟩
            else ⟨.resolvingLabels, .initial, none⟩,
            .error ⟨⟨number, Text.byte '@' :: digits⟩, fault⟩) ∧
        assembleLines [⟨number, Text.byte '@' :: digits⟩] =
          .error ⟨⟨number, Text.byte '@' :: digits⟩, fault⟩ ∧
        fault.toClass = .addressOutOfRange) ∧
      (digits.length + 1 < Source.lineLimit → assembleText (Text.byte '@' :: digits) =
        (assembleLines [⟨1, Text.byte '@' :: digits⟩]).mapError .line)) ∧
    ∀ d rest, Text.isDigit d → (∃ b ∈ rest, Text.isDigit b = false) → ∃ fault,
      assembleLines [⟨number, Text.byte '@' :: d :: rest⟩] =
        .error ⟨⟨number, Text.byte '@' :: d :: rest⟩, fault⟩ ∧
      fault.toClass = .malformedInstruction := by
  refine ⟨fun digits value numeral => ⟨fun fits => ?_, fun far => ?_, fun short => ?_⟩,
    fun d rest hd other => ?_⟩
  · have parsed := Statement.parse_numeral numeral
    rw [if_pos (by omega)] at parsed
    have ran := Assembler.fresh.assemble_singleton_of_operation ⟨number, _⟩ parsed
    obtain ⟨w, toNat, emitted⟩ := Emission.add_literal_of_le fits _ _
    rw [emitted] at ran
    exact ⟨_, congrArg Prod.snd ran, by rw [← toNat]; rfl⟩
  · have parsed := Statement.parse_numeral numeral
    by_cases small : value < 9223372036854775808
    · rw [if_pos small] at parsed ⊢
      have ran := fun b : Assembler => b.assemble_singleton_of_operation ⟨number, _⟩ parsed
      rw [Emission.add_literal_of_lt far] at ran
      exact ⟨_, ran a, congrArg Prod.snd (ran .fresh), rfl⟩
    · rw [if_neg small] at parsed ⊢
      have ran := fun b : Assembler => b.assemble_singleton_of_error ⟨number, _⟩ parsed
      exact ⟨_, ran a, congrArg Prod.snd (ran .fresh), rfl⟩
  · rw [assembleText, Source.read_of_plain_line (isPlain_numeral numeral short)]
  · have parsed := Statement.parse_of_digit hd other
    have ran := Assembler.fresh.assemble_singleton_of_error ⟨number, _⟩ parsed
    exact ⟨_, congrArg Prod.snd ran, rfl⟩

/-- Leading zeros, a number on either side of 64 bits, and a digit in front of a letter. -/
theorem literal_is_read_by_value_leadingZeros :
    (∃ p, assembleLines [⟨7, Text.byte '@' :: Text.ascii "00000000000000000000000032767"⟩] = .ok p ∧
      p.words.toList.map (·.toNat) = [32767]) ∧
    (Assembler.fresh.assemble [⟨7, Text.byte '@' :: Text.ascii "9223372036854775807"⟩]).1.phase =
      .encodingInstructions ∧
    (Assembler.fresh.assemble [⟨7, Text.byte '@' :: Text.ascii "9223372036854775808"⟩]).1.phase =
      .resolvingLabels ∧
    ∃ fault, assembleLines [⟨7, Text.byte '@' :: Text.ascii "5O"⟩] =
        .error ⟨⟨7, Text.byte '@' :: Text.ascii "5O"⟩, fault⟩ ∧
      fault.toClass = .malformedInstruction := by
  obtain ⟨numerals, others⟩ := literal_is_read_by_value .fresh 7
  obtain ⟨fits, -, -⟩ := numerals (Text.ascii "00000000000000000000000032767") 32767
    (Grammar.natural?_iff.1 rfl)
  obtain ⟨-, below, -⟩ := numerals (Text.ascii "9223372036854775807") 9223372036854775807
    (Grammar.natural?_iff.1 rfl)
  obtain ⟨-, above, -⟩ := numerals (Text.ascii "9223372036854775808") 9223372036854775808
    (Grammar.natural?_iff.1 rfl)
  refine ⟨fits (by decide), ?_, ?_, others (Text.byte '5') (Text.ascii "O") rfl ?_⟩
  · obtain ⟨_, ran, -⟩ := below (by decide)
    rw [ran]
    rfl
  · obtain ⟨_, ran, -⟩ := above (by decide)
    rw [ran]
    rfl
  · exact ⟨Text.byte 'O', List.mem_singleton_self _, rfl⟩

end HackMachine
