import HackMachine.Proofs.Assembly.Words
import HackMachine.Proofs.Instruction.Text
import HackMachine.Proofs.Text.WhiteSpace
import Mathlib.Data.Nat.Digits.Defs

/-!
# The grammar of statements

The assembly language is described here by rules, apart from the functions that read it: which texts
are statements (`Generates`), which word a compute statement stands for (`IsCompute`), and the tables
of computations and jumps, with their bits, as a programmer would look them up.

Reading a statement and encoding it if it computes is `accept`.  `accept_iff_generates` says that
this succeeds on the texts of the grammar, with the reading that the grammar gives them, and on no
others, and which of two reasons is given for a text that is refused.

* `isName_iff`, `natural?_iff`: names and numerals.
* `exists_computation_iff`, `exists_destination_iff`, `exists_jump_iff`: the three fields of a compute
  statement and their bits.
* `computeWord_eq_ok_iff`: a word is put together from the bits of its fields.

## Blanks

Blanks may stand anywhere in a compute statement and nowhere else.  So the rule for compute statements
is about what is left of the text without its white space (`Text.Squeezed`), and the rules for
labels and addresses are about the text itself.
-/

namespace HackMachine
namespace Grammar

/-! ## The rules -/

def letters : Text := Text.ascii "ABCDEFGHIJKLMNOPQRSTUVWXYZabcdefghijklmnopqrstuvwxyz"

def digits : Text := Text.ascii "0123456789"

def signs : Text := Text.ascii "_.$:"

/-- A symbol starts with a letter or a sign, and digits may follow. -/
def IsSymbol (t : Text) : Prop :=
  ∃ first rest, t = first :: rest ∧ first ∈ letters ++ signs ∧
    ∀ b ∈ rest, b ∈ letters ++ digits ++ signs

def digit (d : Fin 10) : UInt8 := digits.getD d.val 0

/-- A numeral is one digit or more, the highest first. -/
def IsNumeral (t : Text) (value : Nat) : Prop :=
  ∃ ds : List (Fin 10), ds ≠ [] ∧ t = ds.map digit ∧
    value = Nat.ofDigits 10 (ds.map Fin.val).reverse

/-- The computations on registers, with their control bits. -/
def registerForms : List (Text × Nat) :=
  [(Text.ascii "0", 0b101010), (Text.ascii "1", 0b111111), (Text.ascii "-1", 0b111010),
   (Text.ascii "D", 0b001100), (Text.ascii "A", 0b110000), (Text.ascii "!D", 0b001101),
   (Text.ascii "!A", 0b110001), (Text.ascii "-D", 0b001111), (Text.ascii "-A", 0b110011),
   (Text.ascii "D+1", 0b011111), (Text.ascii "A+1", 0b110111), (Text.ascii "D-1", 0b001110),
   (Text.ascii "A-1", 0b110010), (Text.ascii "D+A", 0b000010), (Text.ascii "D-A", 0b010011),
   (Text.ascii "A-D", 0b000111), (Text.ascii "D&A", 0b000000), (Text.ascii "D|A", 0b010101)]

/-- The computations on the memory cell: those on `A` with `M` in its place. -/
def memoryForms : List (Text × Nat) :=
  (registerForms.filter fun form => form.1.contains (Text.byte 'A')).map fun form =>
    (form.1.map fun b => if b = Text.byte 'A' then Text.byte 'M' else b, form.2)

/-- The computations with exchanged operands, and what they stand for. -/
def exchangedForms : List (Text × Text) :=
  [(Text.ascii "1+D", Text.ascii "D+1"), (Text.ascii "1+A", Text.ascii "A+1"),
   (Text.ascii "1+M", Text.ascii "M+1"), (Text.ascii "A+D", Text.ascii "D+A"),
   (Text.ascii "M+D", Text.ascii "D+M"), (Text.ascii "A&D", Text.ascii "D&A"),
   (Text.ascii "M&D", Text.ascii "D&M"), (Text.ascii "A|D", Text.ascii "D|A"),
   (Text.ascii "M|D", Text.ascii "D|M")]

/-- The names of the jumps, with their bits. -/
def jumpForms : List (Text × Nat) :=
  [(Text.ascii "JGT", 0b001), (Text.ascii "JEQ", 0b010), (Text.ascii "JGE", 0b011),
   (Text.ascii "JLT", 0b100), (Text.ascii "JNE", 0b101), (Text.ascii "JLE", 0b110),
   (Text.ascii "JMP", 0b111)]

/-- All computations in their usual spelling, with the memory bit before the control bits. -/
def computations : List (Text × Nat) :=
  registerForms ++ memoryForms.map fun form => (form.1, 0b1000000 + form.2)

/-- A computation in its usual spelling or with exchanged operands. -/
def IsComputation (t : Text) (bits : Nat) : Prop :=
  (t, bits) ∈ computations ∨ ∃ form ∈ exchangedForms, form.1 = t ∧ (form.2, bits) ∈ computations

instance (t : Text) (bits : Nat) : Decidable (IsComputation t bits) :=
  inferInstanceAs (Decidable (_ ∨ _))

/-- A destination is a run of place letters, in any order. -/
def IsDestination (t : Text) (bits : Nat) : Prop :=
  t ≠ [] ∧ (∀ b ∈ t, b ∈ Text.ascii "ADM") ∧
    bits = (if Text.byte 'A' ∈ t then 0b100 else 0) + (if Text.byte 'D' ∈ t then 0b010 else 0) +
      (if Text.byte 'M' ∈ t then 0b001 else 0)

/-- What stands before a computation: a destination, or nothing. -/
def IsFront (t : Text) (bits : Nat) : Prop :=
  (t = [] ∧ bits = 0) ∨ ∃ dest, t = dest ++ [Text.byte '='] ∧ IsDestination dest bits

/-- What stands behind a computation: a jump, or nothing. -/
def IsBack (t : Text) (bits : Nat) : Prop :=
  (t = [] ∧ bits = 0) ∨ ∃ jump, t = Text.byte ';' :: jump ∧ (jump, bits) ∈ jumpForms

/-- A compute statement without blanks, and its word. -/
def IsCompute (t : Text) (w : Word) : Prop :=
  ∃ front comp back d c j, t = front ++ comp ++ back ∧ IsFront front d ∧ IsComputation comp c ∧
    IsBack back j ∧ w.toNat = 0b111 * 2 ^ 13 + c * 2 ^ 6 + d * 2 ^ 3 + j

/-- What a statement stands for. -/
inductive Reading where
  | label (name : Text)
  | address (operand : AddressOperand)
  | word (w : Word)

/-- The statements of the language and what they stand for. -/
inductive Generates : Text → Reading → Prop
  | label {name : Text} : IsSymbol name →
      Generates (Text.byte '(' :: (name ++ [Text.byte ')'])) (.label name)
  | symbol {name : Text} : IsSymbol name →
      Generates (Text.byte '@' :: name) (.address (.symbol name))
  | literal {numeral : Text} {value : Nat} : IsNumeral numeral value → value < 2 ^ 63 →
      Generates (Text.byte '@' :: numeral) (.address (.literal value))
  | word {t u : Text} {w : Word} : Text.Squeezed t u → IsCompute u w → Generates t (.word w)

/-- An address statement whose numeral does not fit 64 bits. -/
def IsHuge (t : Text) : Prop :=
  ∃ numeral value, t = Text.byte '@' :: numeral ∧ IsNumeral numeral value ∧ 2 ^ 63 ≤ value

/-- Read a statement, and encode it if it computes. -/
def accept (t : Text) : Except Fault Reading :=
  match Statement.parse t with
  | .error fault => .error (Fault.ofStatement fault)
  | .ok (.label name) => .ok (.label name)
  | .ok (.operation (.address operand)) => .ok (.address operand)
  | .ok (.operation (.compute dest comp jump)) =>
    (Emission.computeWord dest comp jump).map .word

/-! ## Names and numerals -/

/-- A text that holds `n` bytes from `low` on holds every byte in that range. -/
theorem mem_of_range {t : Text} {low n : Nat} (h : ∀ k < n, UInt8.ofNat (low + k) ∈ t) {b : UInt8}
    (above : low ≤ b.toNat) (below : b.toNat < low + n) : b ∈ t := by
  have listed := h (b.toNat - low) (by omega)
  rwa [Nat.add_sub_cancel' above, UInt8.ofNat_toNat] at listed

theorem isLetter_iff {b : UInt8} : Text.isLetter b ↔ b ∈ letters := by
  constructor
  · intro h
    simp only [Text.isLetter, Bool.or_eq_true, Bool.and_eq_true, decide_eq_true_eq,
      UInt8.le_iff_toNat_le] at h
    rcases h with ⟨above, below⟩ | ⟨above, below⟩
    · exact mem_of_range (by decide : ∀ k < 26, UInt8.ofNat (65 + k) ∈ letters) above
        (Nat.lt_succ_of_le below)
    · exact mem_of_range (by decide : ∀ k < 26, UInt8.ofNat (97 + k) ∈ letters) above
        (Nat.lt_succ_of_le below)
  · exact List.all_eq_true.1 (by decide : letters.all Text.isLetter = true) b

theorem isDigit_iff {b : UInt8} : Text.isDigit b ↔ b ∈ digits := by
  constructor
  · intro h
    have bounds := Text.isDigit_iff.1 h
    exact mem_of_range (by decide : ∀ k < 10, UInt8.ofNat (48 + k) ∈ digits) bounds.1 (by omega)
  · exact List.all_eq_true.1 (by decide : digits.all Text.isDigit = true) b

theorem isNameByte_iff {b : UInt8} : isNameByte b ↔ b ∈ letters ++ digits ++ signs := by
  rw [isNameByte, Bool.or_eq_true, Bool.or_eq_true, isLetter_iff, isDigit_iff,
    List.contains_iff_mem, List.mem_append, List.mem_append]
  rfl

/-- The names of symbols are the symbols of the grammar. -/
theorem isName_iff {t : Text} : isName t ↔ IsSymbol t := by
  cases t with
  | nil =>
    constructor
    · intro h
      cases h
    · rintro ⟨_, _, h, -⟩
      cases h
  | cons b rest =>
    have first : (!Text.isDigit b) = true ∧ isNameByte b ↔ b ∈ letters ++ signs := by
      rw [Bool.not_eq_true', Bool.eq_false_iff, Ne, isDigit_iff, isNameByte_iff]
      simp only [List.mem_append]
      constructor
      · rintro ⟨noDigit, (letter | digit) | sign⟩
        · exact .inl letter
        · exact absurd digit noDigit
        · exact .inr sign
      · rintro (letter | sign)
        · exact ⟨(by decide +kernel : ∀ b ∈ letters, b ∉ digits) b letter, .inl (.inl letter)⟩
        · exact ⟨(by decide +kernel : ∀ b ∈ signs, b ∉ digits) b sign, .inr sign⟩
    rw [isName, List.all_cons, Bool.and_eq_true, Bool.and_eq_true, ← and_assoc, first,
      List.all_eq_true]
    simp only [isNameByte_iff]
    constructor
    · rintro ⟨hb, hrest⟩
      exact ⟨b, rest, rfl, hb, hrest⟩
    · rintro ⟨_, _, same, hb, hrest⟩
      cases same
      exact ⟨hb, hrest⟩

/-- Digits are read with the value of their places. -/
theorem decimalValue_digits (ds : List (Fin 10)) :
    Text.decimalValue (ds.map digit) =
      Nat.ofDigits 10 (ds.map Fin.val).reverse := by
  have value : ∀ d, Text.digitValue (digit d) = d.val := by decide
  have values : (ds.map digit).map Text.digitValue = ds.map Fin.val := by
    rw [List.map_map]
    exact List.map_congr_left fun d _ => value d
  rw [Text.decimalValue, Text.valueOf, values, Nat.ofDigits_eq_foldr, List.foldr_reverse]
  simp only [Nat.cast_id, Nat.add_comm]

theorem exists_digits {t : Text} (h : ∀ b ∈ t, Text.isDigit b) :
    ∃ ds : List (Fin 10), t = ds.map digit := by
  induction t with
  | nil => exact ⟨[], rfl⟩
  | cons b t ih =>
    obtain ⟨first, others⟩ := List.forall_mem_cons.1 h
    obtain ⟨ds, rfl⟩ := ih others
    obtain ⟨d, rfl⟩ : ∃ d : Fin 10, b = digit d :=
      (by decide +kernel : ∀ b ∈ digits, ∃ d : Fin 10, b = digit d) b (isDigit_iff.1 first)
    exact ⟨d :: ds, rfl⟩

/-- The numerals that are read are the numerals of the grammar. -/
theorem natural?_iff {t : Text} {value : Nat} :
    Text.natural? t = some value ↔ IsNumeral t value := by
  rw [Text.natural?_eq_some_iff, Text.isDecimal, Bool.and_eq_true, List.all_eq_true]
  constructor
  · rintro ⟨⟨ne, all⟩, rfl⟩
    obtain ⟨ds, rfl⟩ := exists_digits all
    refine ⟨ds, ?_, rfl, decimalValue_digits ds⟩
    rintro rfl
    cases ne
  · rintro ⟨ds, ne, rfl, rfl⟩
    refine ⟨⟨?_, ?_⟩, decimalValue_digits ds⟩
    · rw [Bool.not_eq_true', List.isEmpty_eq_false_iff, Ne, List.map_eq_nil_iff]
      exact ne
    · intro b hb
      obtain ⟨d, -, rfl⟩ := List.mem_map.1 hb
      exact (by decide : ∀ d : Fin 10, Text.isDigit (digit d)) d

/-! ## The fields of a compute statement -/

/-- The computations that are read are those of the tables, with the bits found there. -/
theorem exists_computation_iff {t : Text} {bits : Nat} :
    (∃ c, Computation.ofText? t = some c ∧
        Word.valueOfBits (c.readsMemory :: c.control.bits) = bits) ↔ IsComputation t bits := by
  constructor
  · rintro ⟨c, found, rfl⟩
    have spelling := Computation.text_of_ofText? found
    rcases Computation.canonical_cases t with same | reversed
    · rw [same] at spelling
      rw [← spelling]
      exact (by decide +kernel : ∀ c ∈ Computation.all,
        IsComputation c.text (Word.valueOfBits (c.readsMemory :: c.control.bits))) c c.mem_all
    · -- only the texts whose canonical form is the other way round have been exchanged
      rw [reversed] at spelling
      obtain rfl : t = c.text.reverse := by rw [spelling, List.reverse_reverse]
      rw [List.reverse_reverse] at reversed
      exact (by decide +kernel : ∀ c ∈ Computation.all,
        Computation.canonical c.text.reverse = c.text → IsComputation c.text.reverse
          (Word.valueOfBits (c.readsMemory :: c.control.bits))) c c.mem_all reversed
  · have usual : ∀ form ∈ computations, ∃ c ∈ Computation.all, Computation.ofText? form.1 = some c ∧
        Word.valueOfBits (c.readsMemory :: c.control.bits) = form.2 := by decide +kernel
    have exchanged : ∀ form ∈ exchangedForms,
        Computation.ofText? form.1 = Computation.ofText? form.2 := by decide +kernel
    rintro (listed | ⟨form, hform, rfl, listed⟩)
    · obtain ⟨c, -, found, value⟩ := usual _ listed
      exact ⟨c, found, value⟩
    · obtain ⟨c, -, found, value⟩ := usual _ listed
      exact ⟨c, (exchanged form hform).trans found, value⟩

theorem isPlace_iff {b : UInt8} : Destination.isPlace b ↔ b ∈ Text.ascii "ADM" := by
  change _ ↔ b ∈ [Text.byte 'A', Text.byte 'D', Text.byte 'M']
  simp [Destination.isPlace, or_assoc]

/-- The bits of the places that are named in a text. -/
theorem valueOfBits_places (t : Text) :
    Word.valueOfBits [t.contains (Text.byte 'A'), t.contains (Text.byte 'D'),
        t.contains (Text.byte 'M')] =
      (if Text.byte 'A' ∈ t then 0b100 else 0) + (if Text.byte 'D' ∈ t then 0b010 else 0) +
        (if Text.byte 'M' ∈ t then 0b001 else 0) := by
  have three : ∀ a d m : Bool, Word.valueOfBits [a, d, m] =
      (if a = true then 4 else 0) + (if d = true then 2 else 0) + (if m = true then 1 else 0) := by
    decide
  rw [three]
  simp only [List.contains_iff_mem]

/-- The destinations that are read are the runs of place letters, with one bit for each place. -/
theorem exists_destination_iff {t : Text} {bits : Nat} :
    (∃ d, Destination.ofText? t = some d ∧ Word.valueOfBits d.bits = bits) ↔
      (t = [] ∧ bits = 0) ∨ IsDestination t bits := by
  constructor
  · rintro ⟨d, found, rfl⟩
    by_cases empty : t = []
    · subst empty
      cases found
      exact .inl ⟨rfl, rfl⟩
    · have places : ∀ b ∈ t, b ∈ Text.ascii "ADM" := fun b hb =>
        isPlace_iff.1 (Destination.isPlace_of_ofText? found b hb)
      rw [Destination.eq_of_ofText? found]
      exact .inr ⟨empty, places, valueOfBits_places t⟩
  · rintro (⟨rfl, rfl⟩ | ⟨-, places, rfl⟩)
    · exact ⟨⟨false, false, false⟩, rfl, rfl⟩
    · have all : t.all Destination.isPlace = true :=
        List.all_eq_true.2 fun b hb => isPlace_iff.2 (places b hb)
      exact ⟨_, if_pos all, valueOfBits_places t⟩

/-- The jumps that are read are those of the table, with the bits found there. -/
theorem exists_jump_iff {t : Text} {bits : Nat} :
    (∃ j, Jump.ofText? t = some j ∧ Word.valueOfBits j.bits = bits) ↔
      (t = [] ∧ bits = 0) ∨ (t, bits) ∈ jumpForms := by
  constructor
  · rintro ⟨j, found, rfl⟩
    rw [← Jump.text_of_ofText? found]
    rcases j with ⟨_ | _, _ | _, _ | _⟩ <;> decide
  · have named : ∀ form ∈ jumpForms, ∃ j ∈ Jump.all, Jump.ofText? form.1 = some j ∧
        Word.valueOfBits j.bits = form.2 := by decide
    rintro (⟨rfl, rfl⟩ | listed)
    · exact ⟨.never, rfl, rfl⟩
    · obtain ⟨j, -, found, value⟩ := named _ listed
      exact ⟨j, found, value⟩

/-- The bits of the fields stand side by side in a word. -/
theorem toNat_encode (d : Destination) (c : Computation) (j : Jump) :
    (Instruction.compute d c j).encode.toNat =
      0b111 * 2 ^ 13 + Word.valueOfBits (c.readsMemory :: c.control.bits) * 2 ^ 6 +
        Word.valueOfBits d.bits * 2 ^ 3 + Word.valueOfBits j.bits := by
  rw [Instruction.encode, Format.computeWord, Word.toNat_ofBits rfl]
  simp only [Word.valueOfBits, Control.bits, Destination.bits, Jump.bits, List.cons_append,
    List.nil_append, List.foldl_cons, List.foldl_nil, Bool.toNat_true]
  omega

/-- The fields that are encoded are those of the grammar, and the word is made of their bits. -/
theorem computeWord_eq_ok_iff {dest comp jump : Text} {w : Word} :
    Emission.computeWord dest comp jump = .ok w ↔
      ∃ d c j, ((dest = [] ∧ d = 0) ∨ IsDestination dest d) ∧ IsComputation comp c ∧
        ((jump = [] ∧ j = 0) ∨ (jump, j) ∈ jumpForms) ∧
        w.toNat = 0b111 * 2 ^ 13 + c * 2 ^ 6 + d * 2 ^ 3 + j := by
  simp only [← exists_destination_iff, ← exists_computation_iff, ← exists_jump_iff]
  constructor
  · intro h
    obtain ⟨i, fields, rfl⟩ := Emission.computeWord_eq_ok h
    obtain ⟨d, c, j, rfl, hd, hc, hj⟩ := Instruction.ofFields_eq_ok fields
    exact ⟨_, _, _, ⟨d, hd, rfl⟩, ⟨c, hc, rfl⟩, ⟨j, hj, rfl⟩, toNat_encode d c j⟩
  · rintro ⟨_, _, _, ⟨d, hd, rfl⟩, ⟨c, hc, rfl⟩, ⟨j, hj, rfl⟩, value⟩
    rw [← toNat_encode, UInt16.toNat_inj] at value
    simp only [Emission.computeWord, Instruction.ofFields, hd, hc, hj, value]

/-- The fields of the grammar hold none of the bytes that separate fields or open a statement. -/
theorem isFieldByte_of_computeWord {dest comp jump : Text} {w : Word}
    (h : Emission.computeWord dest comp jump = .ok w) :
    (∀ b ∈ dest, isFieldByte b) ∧ (∀ b ∈ comp, isFieldByte b) ∧ (∀ b ∈ jump, isFieldByte b) ∧
      comp ≠ [] := by
  obtain ⟨d, c, j, hd, hc, hj, -⟩ := computeWord_eq_ok_iff.1 h
  have places : ∀ b ∈ dest, isFieldByte b := by
    rcases hd with ⟨rfl, -⟩ | ⟨-, places, -⟩
    · exact nofun
    · exact fun b hb => (by decide +kernel : ∀ b ∈ Text.ascii "ADM", isFieldByte b) b (places b hb)
  have usual : (∀ b ∈ comp, isFieldByte b) ∧ comp ≠ [] := by
    rcases hc with listed | ⟨form, hform, rfl, -⟩
    · exact (by decide +kernel : ∀ form ∈ computations,
        (∀ b ∈ form.1, isFieldByte b) ∧ form.1 ≠ []) _ listed
    · exact (by decide +kernel : ∀ form ∈ exchangedForms,
        (∀ b ∈ form.1, isFieldByte b) ∧ form.1 ≠ []) _ hform
  have named : ∀ b ∈ jump, isFieldByte b := by
    rcases hj with ⟨rfl, -⟩ | listed
    · exact nofun
    · exact (by decide +kernel : ∀ form ∈ jumpForms, ∀ b ∈ form.1, isFieldByte b) _ listed
  exact ⟨places, usual.1, named, usual.2⟩

/-! ## Compute statements -/

theorem isFront_iff {front : Text} {d : Nat} :
    IsFront front d ↔ ∃ dest, front = (if dest.isEmpty then [] else dest ++ [Text.byte '=']) ∧
      ((dest = [] ∧ d = 0) ∨ IsDestination dest d) := by
  constructor
  · rintro (⟨rfl, rfl⟩ | ⟨dest, rfl, hd⟩)
    · exact ⟨[], rfl, .inl ⟨rfl, rfl⟩⟩
    · refine ⟨dest, ?_, .inr hd⟩
      rw [if_neg (by simpa using hd.1)]
  · rintro ⟨dest, rfl, ⟨rfl, rfl⟩ | hd⟩
    · exact .inl ⟨rfl, rfl⟩
    · refine .inr ⟨dest, ?_, hd⟩
      rw [if_neg (by simpa using hd.1)]

theorem isBack_iff {back : Text} {j : Nat} :
    IsBack back j ↔ ∃ jump, back = (if jump.isEmpty then [] else Text.byte ';' :: jump) ∧
      ((jump = [] ∧ j = 0) ∨ (jump, j) ∈ jumpForms) := by
  have ne : ∀ form ∈ jumpForms, ¬ form.1.isEmpty = true := by decide
  constructor
  · rintro (⟨rfl, rfl⟩ | ⟨jump, rfl, hj⟩)
    · exact ⟨[], rfl, .inl ⟨rfl, rfl⟩⟩
    · exact ⟨jump, (if_neg (ne _ hj)).symm, .inr hj⟩
  · rintro ⟨jump, rfl, ⟨rfl, rfl⟩ | hj⟩
    · exact .inl ⟨rfl, rfl⟩
    · exact .inr ⟨jump, if_neg (ne _ hj), hj⟩

/-- The compute statements of the grammar are the joined fields that can be encoded. -/
theorem isCompute_iff {t : Text} {w : Word} :
    IsCompute t w ↔ ∃ dest comp jump, t = Statement.joinFields dest comp jump ∧
      Emission.computeWord dest comp jump = .ok w := by
  simp only [computeWord_eq_ok_iff]
  constructor
  · rintro ⟨_, comp, _, d, c, j, rfl, front, hc, back, word⟩
    obtain ⟨dest, rfl, hd⟩ := isFront_iff.1 front
    obtain ⟨jump, rfl, hj⟩ := isBack_iff.1 back
    exact ⟨dest, comp, jump, rfl, d, c, j, hd, hc, hj, word⟩
  · rintro ⟨dest, comp, jump, rfl, d, c, j, hd, hc, hj, word⟩
    exact ⟨_, comp, _, d, c, j, rfl, isFront_iff.2 ⟨dest, rfl, hd⟩, hc,
      isBack_iff.2 ⟨jump, rfl, hj⟩, word⟩

/-- A text is read as a computation and encoded if it is one of the grammar, blanks apart. -/
theorem exists_parse_iff {t : Text} {w : Word} :
    (∃ dest comp jump, Statement.parse t = .ok (.operation (.compute dest comp jump)) ∧
        Emission.computeWord dest comp jump = .ok w) ↔ IsCompute t.withoutBlanks w := by
  rw [isCompute_iff]
  constructor
  · rintro ⟨dest, comp, jump, parsed, word⟩
    rcases Statement.parse_eq_ok parsed with ⟨_, _, -, -, other⟩ | ⟨_, _, -, -, other⟩ |
      ⟨op, read, same⟩
    · cases other
    · cases other
    · cases same
      exact ⟨dest, comp, jump, Statement.withoutBlanks_of_readCompute read, word⟩
  · rintro ⟨dest, comp, jump, joined, word⟩
    obtain ⟨hd, hc, hj, ne⟩ := isFieldByte_of_computeWord word
    exact ⟨dest, comp, jump, Statement.parse_of_withoutBlanks hd hc hj ne joined, word⟩

/-! ## The outcome of reading -/

theorem accept_of_parse_error {t : Text} {fault : Statement.Fault}
    (h : Statement.parse t = .error fault) : accept t = .error (Fault.ofStatement fault) := by
  rw [accept, h]

/-- What is refused is malformed, or it is a literal beyond 64 bits. -/
theorem accept_error_cases {t : Text} {fault : Fault} (h : accept t = .error fault) :
    (∃ why, fault = .malformed why) ∨
      ∃ digits, fault = .hugeLiteral digits ∧ Statement.parse t = .error (.hugeLiteral digits) := by
  unfold accept at h
  split at h
  · next fault' parsed =>
    cases fault' with
    | malformed why => exact .inl ⟨why, (Except.error.inj h).symm⟩
    | hugeLiteral digits => exact .inr ⟨digits, (Except.error.inj h).symm, parsed⟩
  · cases h
  · cases h
  · next dest comp jump _ =>
    unfold Emission.computeWord at h
    cases fields : Instruction.ofFields dest comp jump with
    | ok i =>
      rw [fields] at h
      cases h
    | error why =>
      rw [fields] at h
      exact .inl ⟨why, (Except.error.inj h).symm⟩

theorem isHuge_iff {t : Text} :
    IsHuge t ↔ ∃ digits, Statement.parse t = .error (.hugeLiteral digits) := by
  simp only [Statement.parse_eq_huge_iff, natural?_iff]
  constructor
  · rintro ⟨digits, value, rfl, numeral, huge⟩
    exact ⟨digits, rfl, value, numeral, huge⟩
  · rintro ⟨digits, rfl, value, numeral, huge⟩
    exact ⟨digits, value, rfl, numeral, huge⟩

/-- What is read is what the grammar generates. -/
theorem accept_eq_ok_iff {t : Text} {r : Reading} : accept t = .ok r ↔ Generates t r := by
  constructor
  · intro h
    unfold accept at h
    split at h
    · cases h
    · next name parsed =>
      cases h
      obtain ⟨rfl, valid⟩ := Statement.parse_eq_label_iff.1 parsed
      exact .label (isName_iff.1 valid)
    · next operand parsed =>
      cases h
      cases operand with
      | literal value =>
        obtain ⟨rest, rfl, numeral, fits⟩ := Statement.parse_eq_literal_iff.1 parsed
        exact .literal (natural?_iff.1 numeral) fits
      | symbol name =>
        obtain ⟨rfl, valid⟩ := Statement.parse_eq_symbol_iff.1 parsed
        exact .symbol (isName_iff.1 valid)
    · next dest comp jump parsed =>
      cases word : Emission.computeWord dest comp jump with
      | error fault =>
        rw [word] at h
        cases h
      | ok w =>
        rw [word] at h
        cases h
        exact .word (Text.withoutBlanks_eq_iff.1 rfl)
          (exists_parse_iff.1 ⟨dest, comp, jump, parsed, word⟩)
  · intro h
    cases h with
    | label valid =>
      rw [accept, Statement.parse_eq_label_iff.2 ⟨rfl, isName_iff.2 valid⟩]
    | symbol valid =>
      rw [accept, Statement.parse_eq_symbol_iff.2 ⟨rfl, isName_iff.2 valid⟩]
    | literal numeral fits =>
      rw [accept, Statement.parse_eq_literal_iff.2 ⟨_, rfl, natural?_iff.2 numeral, fits⟩]
    | word squeezed compute =>
      rw [← Text.withoutBlanks_eq_iff.2 squeezed] at compute
      obtain ⟨dest, comp, jump, parsed, word⟩ := exists_parse_iff.2 compute
      simp only [accept, parsed, word]
      rfl

/-- The assembler takes exactly the statements of the grammar, each with the reading that the grammar
gives it.  Any other text is refused: as an address out of range if it is an address statement whose
numeral does not fit 64 bits, and as malformed otherwise. -/
theorem accept_iff_generates (t : Text) :
    (∀ r, accept t = .ok r ↔ Generates t r) ∧
      ∀ c, (∃ fault, accept t = .error fault ∧ fault.toClass = c) ↔
        (c = .addressOutOfRange ∧ IsHuge t) ∨
          (c = .malformedInstruction ∧ ¬ IsHuge t ∧ ∀ r, ¬ Generates t r) := by
  refine ⟨fun r => accept_eq_ok_iff, fun c => ?_⟩
  constructor
  · rintro ⟨fault, refused, rfl⟩
    have none : ∀ r, ¬ Generates t r := by
      intro r generated
      rw [accept_eq_ok_iff.2 generated] at refused
      cases refused
    rcases accept_error_cases refused with ⟨why, rfl⟩ | ⟨digits, rfl, parsed⟩
    · refine .inr ⟨rfl, ?_, none⟩
      intro huge
      obtain ⟨digits, parsed⟩ := isHuge_iff.1 huge
      rw [accept_of_parse_error parsed] at refused
      cases refused
    · exact .inl ⟨rfl, isHuge_iff.2 ⟨digits, parsed⟩⟩
  · rintro (⟨rfl, huge⟩ | ⟨rfl, notHuge, none⟩)
    · obtain ⟨digits, parsed⟩ := isHuge_iff.1 huge
      exact ⟨.hugeLiteral digits, accept_of_parse_error parsed, rfl⟩
    · cases outcome : accept t with
      | ok r => exact absurd (accept_eq_ok_iff.1 outcome) (none r)
      | error fault =>
        refine ⟨fault, rfl, ?_⟩
        rcases accept_error_cases outcome with ⟨why, rfl⟩ | ⟨digits, rfl, parsed⟩
        · rfl
        · exact absurd (isHuge_iff.2 ⟨digits, parsed⟩) notHuge

example : registerForms.length = 18 ∧ memoryForms.length = 10 ∧ exchangedForms.length = 9 ∧
    jumpForms.length = 7 := by
  decide

end Grammar
end HackMachine
