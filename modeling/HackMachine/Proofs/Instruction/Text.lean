import HackMachine.Proofs.Instruction.Codec
import HackMachine.Proofs.Source
import HackMachine.Proofs.Statement

/-!
# Instructions as lines of assembly language

The text of an instruction is a plain line (`isPlain_text`), and it is read back as a statement
(`parse_text`) whose fields spell the instruction (`ofFields_text`).

The fields of a compute statement are put together by `joinFields` and found again by `readCompute`,
and what it finds is always all of the text but the blanks (`withoutBlanks_of_readCompute`).  For the
first it matters only that the bytes of a field are visible and are none of those that have a meaning
in a statement or a line (`isFieldByte`).
-/

namespace HackMachine

/-- The bytes that may stand in a field of a compute statement. -/
def isFieldByte (b : UInt8) : Bool := Text.isVisible b && !(Text.ascii "=;/(@").contains b

theorem isVisible_of_isFieldByte {b : UInt8} (h : isFieldByte b) : Text.isVisible b :=
  (Bool.and_eq_true_iff.1 h).1

/-- A byte with a meaning of its own does not occur in a field. -/
theorem not_mem_of_isFieldByte {t : Text} (h : ∀ b ∈ t, isFieldByte b) {sep : UInt8}
    (special : isFieldByte sep = false) : sep ∉ t := by
  intro hsep
  rw [h sep hsep] at special
  cases special

/-! ## The spelling of a field -/

namespace Destination

theorem isFieldByte_of_mem_text (dest : Destination) : ∀ b ∈ dest.text, isFieldByte b := by
  have all : dest.text.all isFieldByte = true := by
    rcases dest with ⟨_ | _, _ | _, _ | _⟩ <;> rfl
  exact List.all_eq_true.1 all

theorem ofText?_text (dest : Destination) : ofText? dest.text = some dest := by
  rcases dest with ⟨_ | _, _ | _, _ | _⟩ <;> rfl

/-- All bytes of a destination name places. -/
theorem isPlace_of_ofText? {t : Text} {dest : Destination} (h : ofText? t = some dest) :
    ∀ b ∈ t, isPlace b := by
  unfold ofText? at h
  split at h
  · next all => exact List.all_eq_true.1 all
  · cases h

/-- A destination consists of the letters that are written. -/
theorem eq_of_ofText? {t : Text} {dest : Destination} (h : ofText? t = some dest) :
    dest = ⟨t.contains (Text.byte 'A'), t.contains (Text.byte 'D'), t.contains (Text.byte 'M')⟩ := by
  unfold ofText? at h
  split at h
  · exact (Option.some.inj h).symm
  · cases h

end Destination

namespace Jump

theorem isFieldByte_of_mem_text (jump : Jump) : ∀ b ∈ jump.text, isFieldByte b := by
  have all : jump.text.all isFieldByte = true := by
    rcases jump with ⟨_ | _, _ | _, _ | _⟩ <;> rfl
  exact List.all_eq_true.1 all

theorem ofText?_text (jump : Jump) : ofText? jump.text = some jump := by
  rcases jump with ⟨_ | _, _ | _, _ | _⟩ <;> rfl

theorem text_of_ofText? {t : Text} {jump : Jump} (h : ofText? t = some jump) : jump.text = t := by
  have found := List.find?_some h
  exact eq_of_beq found

end Jump

namespace Computation

theorem isFieldByte_of_mem_text (c : Computation) : ∀ b ∈ c.text, isFieldByte b := by
  have listed : all.all (fun c => c.text.all isFieldByte) = true := rfl
  exact List.all_eq_true.1 (List.all_eq_true.1 listed c c.mem_all)

theorem text_ne_nil (c : Computation) : c.text ≠ [] :=
  (by decide : ∀ c ∈ all, c.text ≠ []) c c.mem_all

theorem length_text_le (c : Computation) : c.text.length ≤ 3 :=
  (by decide : ∀ c ∈ all, c.text.length ≤ 3) c c.mem_all

theorem ofText?_text (c : Computation) : ofText? c.text = some c :=
  (by decide : ∀ c ∈ all, ofText? c.text = some c) c c.mem_all

theorem text_of_ofText? {t : Text} {c : Computation} (h : ofText? t = some c) :
    c.text = canonical t := by
  have found := List.find?_some h
  exact eq_of_beq found

/-- The canonical text has the same operands, possibly the other way round. -/
theorem canonical_cases (t : Text) : canonical t = t ∨ canonical t = t.reverse := by
  unfold canonical
  split
  · split
    · exact .inr rfl
    · exact .inl rfl
  · exact .inl rfl

theorem contains_canonical (t : Text) (b : UInt8) : (canonical t).contains b = t.contains b := by
  rcases canonical_cases t with same | reversed
  · rw [same]
  · rw [reversed, List.contains_reverse]

end Computation

/-! ## Compute statements -/

namespace Statement

/-- The fields of a compute statement in one text. -/
def joinFields (dest comp jump : Text) : Text :=
  (if dest.isEmpty then [] else dest ++ [Text.byte '=']) ++ comp ++
    (if jump.isEmpty then [] else Text.byte ';' :: jump)

variable {dest comp jump rest : Text}

theorem readDestination_append (first : Text.byte '=' ∉ dest) (others : Text.byte '=' ∉ rest) :
    readDestination ((if dest.isEmpty then [] else dest ++ [Text.byte '=']) ++ rest) =
      .ok (dest, rest) := by
  cases dest with
  | nil =>
    change readDestination rest = _
    rw [readDestination, Text.cut_of_not_mem others]
  | cons b dest =>
    change readDestination ((b :: dest ++ [Text.byte '=']) ++ rest) = _
    rw [readDestination, List.append_assoc, List.singleton_append, Text.cut_append first]

theorem readComputation_append (ne : comp ≠ []) (first : Text.byte ';' ∉ comp) :
    readComputation (comp ++ if jump.isEmpty then [] else Text.byte ';' :: jump) =
      .ok (comp, jump) := by
  obtain ⟨c, comp, rfl⟩ := List.exists_cons_of_ne_nil ne
  cases jump with
  | nil =>
    change readComputation ((c :: comp) ++ []) = _
    rw [List.append_nil, readComputation, Text.cut_of_not_mem first]
    rfl
  | cons b jump =>
    change readComputation ((c :: comp) ++ Text.byte ';' :: b :: jump) = _
    rw [readComputation, Text.cut_append first]
    rfl

/-- Joined fields consist of field bytes and of the two bytes that separate them. -/
theorem mem_joinFields (hd : ∀ b ∈ dest, isFieldByte b) (hc : ∀ b ∈ comp, isFieldByte b)
    (hj : ∀ b ∈ jump, isFieldByte b) {b : UInt8} (h : b ∈ joinFields dest comp jump) :
    isFieldByte b ∨ b = Text.byte '=' ∨ b = Text.byte ';' := by
  rw [joinFields, List.mem_append, List.mem_append] at h
  rcases h with (h | h) | h
  · split at h
    · cases h
    · rcases List.mem_append.1 h with h | h
      · exact .inl (hd b h)
      · exact .inr (.inl (List.mem_singleton.1 h))
  · exact .inl (hc b h)
  · split at h
    · cases h
    · rcases List.mem_cons.1 h with h | h
      · exact .inr (.inr h)
      · exact .inl (hj b h)

theorem isVisible_of_mem_joinFields (hd : ∀ b ∈ dest, isFieldByte b)
    (hc : ∀ b ∈ comp, isFieldByte b) (hj : ∀ b ∈ jump, isFieldByte b) :
    ∀ b ∈ joinFields dest comp jump, Text.isVisible b := by
  intro b hb
  rcases mem_joinFields hd hc hj hb with h | rfl | rfl
  · exact isVisible_of_isFieldByte h
  · rfl
  · rfl

/-- Fields that are joined are found again, whatever blanks stand in between. -/
theorem readCompute_of_withoutBlanks (hd : ∀ b ∈ dest, isFieldByte b)
    (hc : ∀ b ∈ comp, isFieldByte b) (hj : ∀ b ∈ jump, isFieldByte b) (ne : comp ≠ []) {t : Text}
    (h : t.withoutBlanks = joinFields dest comp jump) :
    readCompute t = .ok (.compute dest comp jump) := by
  have noEquals : Text.byte '=' ∉ comp ++ if jump.isEmpty then [] else Text.byte ';' :: jump := by
    intro h
    rcases List.mem_append.1 h with h | h
    · exact not_mem_of_isFieldByte hc rfl h
    · split at h
      · cases h
      · rcases List.mem_cons.1 h with h | h
        · cases h
        · exact not_mem_of_isFieldByte hj rfl h
  rw [readCompute, h, joinFields, List.append_assoc,
    readDestination_append (not_mem_of_isFieldByte hd rfl) noEquals]
  simp only [bind, Except.bind]
  rw [readComputation_append ne (not_mem_of_isFieldByte hc rfl)]
  rfl

/-- Joined fields are read as a compute statement, since they open neither a label nor an
address. -/
theorem parse_of_withoutBlanks (hd : ∀ b ∈ dest, isFieldByte b) (hc : ∀ b ∈ comp, isFieldByte b)
    (hj : ∀ b ∈ jump, isFieldByte b) (ne : comp ≠ []) {t : Text}
    (h : t.withoutBlanks = joinFields dest comp jump) :
    parse t = .ok (.operation (.compute dest comp jump)) := by
  have read := readCompute_of_withoutBlanks hd hc hj ne h
  -- a byte that opens a label or an address is visible, so it would be among the fields
  have other : ∀ b, Text.isVisible b → isFieldByte b = false → b ≠ Text.byte '=' →
      b ≠ Text.byte ';' → t.head? ≠ some b := by
    intro b visible special noEquals noSemicolon first
    obtain ⟨rest, rfl⟩ := List.head?_eq_some_iff.1 first
    rw [Text.withoutBlanks_cons_of_visible visible] at h
    rcases mem_joinFields hd hc hj (h ▸ List.mem_cons_self) with field | rfl | rfl
    · rw [special] at field
      cases field
    · exact noEquals rfl
    · exact noSemicolon rfl
  cases t with
  | nil =>
    obtain ⟨-, empty⟩ := List.append_eq_nil_iff.1 (List.append_eq_nil_iff.1 h.symm).1
    exact absurd empty ne
  | cons b rest =>
    have noLabel : b ≠ Text.byte '(' := by
      rintro rfl
      exact other (Text.byte '(') rfl rfl nofun nofun rfl
    have noAddress : b ≠ Text.byte '@' := by
      rintro rfl
      exact other (Text.byte '@') rfl rfl nofun nofun rfl
    rw [parse_compute noLabel noAddress, read]
    rfl

theorem readDestination_eq_ok {t : Text} (h : readDestination t = .ok (dest, rest)) :
    t = (if dest.isEmpty then [] else dest ++ [Text.byte '=']) ++ rest := by
  unfold readDestination at h
  rcases Text.cut_cases (Text.byte '=') t with ⟨-, cut⟩ | ⟨front, after, -, rfl, cut⟩
  · rw [cut] at h
    cases h
    rfl
  · rw [cut] at h
    cases front with
    | nil => cases h
    | cons b front =>
      cases h
      simp

theorem readComputation_eq_ok {t : Text} (h : readComputation t = .ok (comp, jump)) :
    t = comp ++ if jump.isEmpty then [] else Text.byte ';' :: jump := by
  unfold readComputation at h
  rcases Text.cut_cases (Text.byte ';') t with ⟨-, cut⟩ | ⟨front, after, -, rfl, cut⟩
  · rw [cut] at h
    cases t with
    | nil => cases h
    | cons b t =>
      cases h
      simp
  · rw [cut] at h
    cases front with
    | nil => cases h
    | cons b front =>
      cases after with
      | nil => cases h
      | cons c after =>
        cases h
        rfl

/-- A compute statement consists of its fields and of blanks. -/
theorem withoutBlanks_of_readCompute {t : Text}
    (h : readCompute t = .ok (.compute dest comp jump)) :
    t.withoutBlanks = joinFields dest comp jump := by
  obtain ⟨dest', rest, comp', jump', front, back, same⟩ := readCompute_eq_ok h
  cases same
  rw [readDestination_eq_ok front, readComputation_eq_ok back, joinFields, List.append_assoc]

end Statement

/-! ## Instructions -/

namespace Instruction

/-- The statement that spells an instruction. -/
def operation : Instruction → Operation
  | .load value => .address (.literal value)
  | .compute dest comp jump => .compute dest.text comp.text jump.text

/-- The text of an instruction is read as its statement. -/
theorem parse_text (i : Instruction) : Statement.parse i.text = .ok (.operation i.operation) := by
  cases i with
  | load value =>
    have fits : value.val < Text.int64Bound :=
      Nat.lt_trans value.isLt (by decide)
    cases digits : Text.decimal value with
    | nil => exact absurd digits (Text.decimal_ne_nil value)
    | cons b t =>
      have digit : Text.isDigit b := Text.isDigit_of_mem_decimal (digits ▸ List.mem_cons_self)
      have number : Text.natural? (b :: t) = some value.val := digits ▸ Text.natural?_decimal value
      have operand : Statement.readOperand (b :: t) = .ok (.literal value) := by
        rw [Statement.readOperand, if_pos digit, number]
        exact if_pos fits
      rw [text, digits, Statement.parse, if_neg (by decide), if_pos rfl, operand]
      rfl
  | compute dest comp jump =>
    exact Statement.parse_of_withoutBlanks dest.isFieldByte_of_mem_text
      comp.isFieldByte_of_mem_text jump.isFieldByte_of_mem_text comp.text_ne_nil
      (Text.withoutBlanks_of_visible (Statement.isVisible_of_mem_joinFields
        dest.isFieldByte_of_mem_text comp.isFieldByte_of_mem_text jump.isFieldByte_of_mem_text))

/-- The fields of a compute instruction spell it. -/
theorem ofFields_text (dest : Destination) (comp : Computation) (jump : Jump) :
    ofFields dest.text comp.text jump.text = .ok (.compute dest comp jump) := by
  simp only [ofFields, Computation.ofText?_text, Destination.ofText?_text, Jump.ofText?_text]

/-- Fields that spell an instruction spell its three parts. -/
theorem ofFields_eq_ok {dest comp jump : Text} {i : Instruction}
    (h : ofFields dest comp jump = .ok i) :
    ∃ d c j, i = .compute d c j ∧ Destination.ofText? dest = some d ∧
      Computation.ofText? comp = some c ∧ Jump.ofText? jump = some j := by
  unfold ofFields at h
  split at h
  · cases h
  · next c hc =>
    split at h
    · cases h
    · next d hd =>
      split at h
      · cases h
      · next j hj =>
        cases h
        exact ⟨d, c, j, rfl, hd, hc, hj⟩

/-- The bytes of the text of an instruction are visible, and none of them is a slash. -/
theorem isVisible_of_mem_text (i : Instruction) :
    ∀ b ∈ i.text, Text.isVisible b ∧ b ≠ Text.byte '/' := by
  intro b hb
  cases i with
  | load value =>
    rcases List.mem_cons.1 hb with rfl | hb
    · exact ⟨rfl, nofun⟩
    · have bounds := Text.isDigit_iff.1 (Text.isDigit_of_mem_decimal hb)
      refine ⟨Text.isVisible_iff.2 (by omega), ?_⟩
      rintro rfl
      exact absurd bounds (by decide)
  | compute dest comp jump =>
    rcases Statement.mem_joinFields dest.isFieldByte_of_mem_text comp.isFieldByte_of_mem_text
      jump.isFieldByte_of_mem_text hb with h | rfl | rfl
    · refine ⟨isVisible_of_isFieldByte h, ?_⟩
      rintro rfl
      cases h
    · exact ⟨rfl, nofun⟩
    · exact ⟨rfl, nofun⟩

theorem text_ne_nil (i : Instruction) : i.text ≠ [] := by
  intro empty
  have read := i.parse_text
  rw [empty] at read
  cases read

theorem length_text_le (i : Instruction) : i.text.length ≤ 11 := by
  cases i with
  | load value =>
    have digits : (Nat.toDigits 10 value).length ≤ 5 :=
      (Nat.length_toDigits_le_iff (by decide) (by decide)).2 (Nat.lt_trans value.isLt (by decide))
    simp only [text, Text.decimal, List.length_cons, List.length_map]
    omega
  | compute dest comp jump =>
    have hd : (if dest.text.isEmpty then [] else dest.text ++ [Text.byte '=']).length ≤ 4 := by
      rcases dest with ⟨_ | _, _ | _, _ | _⟩ <;> decide
    have hc := comp.length_text_le
    have hj : (if jump.text.isEmpty then [] else Text.byte ';' :: jump.text).length ≤ 4 := by
      rcases jump with ⟨_ | _, _ | _, _ | _⟩ <;> decide
    simp only [text, List.length_append]
    omega

/-- The text of an instruction is a line that is read as it stands. -/
theorem isPlain_text (i : Instruction) : Source.IsPlain i.text where
  clean := Source.clean_of_visible (fun b hb => (i.isVisible_of_mem_text b hb).1)
    fun slash => (i.isVisible_of_mem_text _ slash).2 rfl
  ne_nil := i.text_ne_nil
  noNewline := fun newline => absurd (i.isVisible_of_mem_text _ newline).1 (by decide)
  short := Nat.lt_of_le_of_lt i.length_text_le (by decide)

end Instruction
end HackMachine
