import HackMachine.Proofs.Grammar

/-!
# Spellings of a compute instruction

A compute instruction can be spelled in several ways: the letters of its destination may stand in
any order and be repeated, and the operands of `+`, `&` and `|` may be exchanged.  These are the
only ways.  Two spellings have the same word exactly if their destinations have the same letters,
their computations the same canonical text, and their jumps the same name
(`same_word_iff_same_canonical`).

Each field is settled on its own, since a word can be decoded and so determines the three parts of
its instruction: `Destination.eq_iff_of_ofText?`, `Computation.eq_iff_of_ofText?` and
`Jump.eq_iff_of_ofText?`.

## One table for both operands

There are 28 computations but 18 settings of the arithmetic unit.  So the bits of a computation can
be looked up in a table of 18 if `M` is first replaced by `A`, and remembered in the memory bit.
This is `tableBits?`, and it gives the same bits as the list of all computations
(`bits?_eq_tableBits?`), although a text like `A+M` and one like `A+A` cannot be told apart after
the replacement.  Two facts make this work:

* `A` and `M` have the same place in the canonical order, so it does not matter whether operands are
  exchanged before or after the replacement (`canonical_map_registerLetter`);
* no computation of the table has `A` more than once, so all that the replacement can have taken
  away is one `M` (`eq_of_map_registerLetter`).
-/

namespace HackMachine

namespace Computation

/-! ## Canonical texts -/

/-- Operands that have been put in order are in order. -/
theorem canonical_canonical (t : Text) : canonical (canonical t) = canonical t := by
  rcases t with _ | ⟨x, _ | ⟨op, _ | ⟨y, _ | ⟨z, t⟩⟩⟩⟩
  · rfl
  · rfl
  · rfl
  · cases exchange : isCommutative op && outOfOrder x y with
    | false => simp [canonical, exchange]
    | true =>
      have inOrder : outOfOrder y x = false := by
        rw [Bool.and_eq_true] at exchange
        have wrong := exchange.2
        simp only [outOfOrder] at wrong ⊢
        split at wrong
        · next i j hx hy =>
          rw [hx, hy]
          simp only [decide_eq_true_eq, decide_eq_false_iff_not] at wrong ⊢
          omega
        · cases wrong
      simp [canonical, exchange, inOrder]
  · rfl

/-! ## The bits of a computation -/

/-- The memory bit and the control bits of the computation that a text spells. -/
def bits? (t : Text) : Option (Bool × Nat) :=
  (ofText? t).map fun c => (c.readsMemory, Word.valueOfBits c.control.bits)

/-- The letter `A` in place of `M`. -/
def registerLetter (b : UInt8) : UInt8 := if b = Text.byte 'M' then Text.byte 'A' else b

/-- The letter `M` in place of `A`. -/
def memoryLetter (b : UInt8) : UInt8 := if b = Text.byte 'A' then Text.byte 'M' else b

/-- The bits of a computation by the table of computations on registers: `M` is replaced by `A`, and
the operands are put in order before the text is looked up. -/
def tableBits? (t : Text) : Option (Bool × Nat) :=
  (Grammar.registerForms.lookup (canonical (t.map registerLetter))).map fun bits =>
    (t.contains (Text.byte 'M'), bits)

/-- What does not tell `M` from `A` does not notice the replacement. -/
theorem apply_registerLetter {α : Type} {f : UInt8 → α}
    (same : f (Text.byte 'A') = f (Text.byte 'M')) (b : UInt8) : f (registerLetter b) = f b := by
  unfold registerLetter
  split
  · next memory => rw [memory, same]
  · rfl

theorem isCommutative_registerLetter (b : UInt8) :
    isCommutative (registerLetter b) = isCommutative b :=
  apply_registerLetter rfl b

theorem rank?_registerLetter (b : UInt8) : rank? (registerLetter b) = rank? b :=
  apply_registerLetter rfl b

theorem outOfOrder_registerLetter (x y : UInt8) :
    outOfOrder (registerLetter x) (registerLetter y) = outOfOrder x y := by
  simp only [outOfOrder, rank?_registerLetter]

/-- Operands may be put in order before or after `M` is replaced. -/
theorem canonical_map_registerLetter (t : Text) :
    canonical (t.map registerLetter) = (canonical t).map registerLetter := by
  rcases t with _ | ⟨x, _ | ⟨op, _ | ⟨y, _ | ⟨z, t⟩⟩⟩⟩
  · rfl
  · rfl
  · rfl
  · cases exchange : isCommutative op && outOfOrder x y <;>
      simp [canonical, isCommutative_registerLetter, outOfOrder_registerLetter, exchange]
  · rfl

/-- Where `M` is replaced by `A`, there are as many `A` as there were of both. -/
theorem count_map_registerLetter (t : Text) :
    (t.map registerLetter).count (Text.byte 'A') =
      t.count (Text.byte 'A') + t.count (Text.byte 'M') := by
  induction t with
  | nil => rfl
  | cons b t ih =>
    rw [List.map_cons]
    by_cases memory : b = Text.byte 'M'
    · subst memory
      have replaced : registerLetter (Text.byte 'M') = Text.byte 'A' := rfl
      have other : Text.byte 'M' ≠ Text.byte 'A' := by decide
      rw [replaced, List.count_cons_self, List.count_cons_self, List.count_cons_of_ne other, ih]
      omega
    · have kept : registerLetter b = b := if_neg memory
      rw [kept, List.count_cons, List.count_cons, List.count_cons_of_ne memory, ih]
      omega

/-- A text that has `A` at most once after the replacement is found again from what it has become:
either nothing was replaced, or this one letter. -/
theorem eq_of_map_registerLetter {t : Text}
    (once : (t.map registerLetter).count (Text.byte 'A') ≤ 1) :
    t = t.map registerLetter ∨ t = (t.map registerLetter).map memoryLetter := by
  by_cases memory : Text.byte 'M' ∈ t
  · right
    have noRegister : Text.byte 'A' ∉ t := by
      have some := List.count_pos_iff.2 memory
      rw [count_map_registerLetter] at once
      exact List.count_eq_zero.1 (by omega)
    rw [List.map_map]
    refine (List.map_id t).symm.trans (List.map_congr_left fun b hb => ?_)
    have other : b ≠ Text.byte 'A' := fun h => noRegister (h ▸ hb)
    show b = memoryLetter (registerLetter b)
    by_cases replaced : b = Text.byte 'M'
    · rw [replaced]
      rfl
    · rw [registerLetter, if_neg replaced, memoryLetter, if_neg other]
  · left
    refine (List.map_id t).symm.trans (List.map_congr_left fun b hb => ?_)
    have other : b ≠ Text.byte 'M' := fun h => memory (h ▸ hb)
    exact (if_neg other).symm

/-- A computation is found among all of them exactly if it is in the table with `A` for `M`. -/
theorem find?_eq_lookup (t : Text) :
    ((all.find? fun c => c.text == t).map fun c =>
        (c.readsMemory, Word.valueOfBits c.control.bits)) =
      (Grammar.registerForms.lookup (t.map registerLetter)).map fun bits =>
        (t.contains (Text.byte 'M'), bits) := by
  cases found : all.find? fun c => c.text == t with
  | some c =>
    have text := List.find?_some found
    obtain rfl : c.text = t := eq_of_beq text
    have listed : ∀ c ∈ all,
        Grammar.registerForms.lookup (c.text.map registerLetter) =
          some (Word.valueOfBits c.control.bits) ∧
        c.text.contains (Text.byte 'M') = c.readsMemory := by decide +kernel
    obtain ⟨entry, memory⟩ := listed c c.mem_all
    rw [entry, memory]
    rfl
  | none =>
    cases entry : Grammar.registerForms.lookup (t.map registerLetter) with
    | none => rfl
    | some bits =>
      -- the text of the entry is a computation, and so is the text with `M` for `A`
      have spelled : ∀ form ∈ Grammar.registerForms, form.1.count (Text.byte 'A') ≤ 1 ∧
          (∃ c ∈ all, c.text = form.1) ∧ ∃ c ∈ all, c.text = form.1.map memoryLetter := by
        decide +kernel
      obtain ⟨front, back, split, -⟩ := List.lookup_eq_some_iff.1 entry
      obtain ⟨once, register, memory⟩ := spelled (t.map registerLetter, bits) (by simp [split])
      rw [List.find?_eq_none] at found
      rcases eq_of_map_registerLetter once with same | same
      · obtain ⟨c, listed, text⟩ := register
        exact absurd (beq_iff_eq.2 (text.trans same.symm)) (found c listed)
      · obtain ⟨c, listed, text⟩ := memory
        exact absurd (beq_iff_eq.2 (text.trans same.symm)) (found c listed)

/-- The bits of a computation are those that the table of computations on registers gives. -/
theorem bits?_eq_tableBits? (t : Text) : bits? t = tableBits? t := by
  rw [bits?, ofText?, find?_eq_lookup, tableBits?, canonical_map_registerLetter, contains_canonical]

theorem bits?_canonical (t : Text) : bits? (canonical t) = bits? t := by
  rw [bits?, bits?, ofText?, ofText?, canonical_canonical]

/-- Two texts spell the same computation exactly if they have the same canonical text. -/
theorem eq_iff_of_ofText? {t t' : Text} {c c' : Computation} (h : ofText? t = some c)
    (h' : ofText? t' = some c') : c = c' ↔ canonical t = canonical t' := by
  rw [← text_of_ofText? h, ← text_of_ofText? h']
  constructor
  · rintro rfl
    rfl
  · intro same
    have read := c.ofText?_text
    rw [same, c'.ofText?_text] at read
    exact (Option.some.inj read).symm

end Computation

/-! ## Destinations and jumps -/

theorem Jump.eq_iff_of_ofText? {t t' : Text} {j j' : Jump} (h : ofText? t = some j)
    (h' : ofText? t' = some j') : j = j' ↔ t = t' := by
  constructor
  · rintro rfl
    rw [← text_of_ofText? h, ← text_of_ofText? h']
  · rintro rfl
    exact Option.some.inj (h.symm.trans h')

/-- The letters of a destination are those of its places. -/
theorem Destination.mem_iff_of_ofText? {t : Text} {dest : Destination} (h : ofText? t = some dest)
    {b : UInt8} :
    b ∈ t ↔ b = Text.byte 'A' ∧ dest.a = true ∨ b = Text.byte 'D' ∧ dest.d = true ∨
      b = Text.byte 'M' ∧ dest.m = true := by
  have places := isPlace_of_ofText? h
  obtain rfl := eq_of_ofText? h
  simp only [List.contains_iff_mem]
  constructor
  · intro hb
    have place := places b hb
    simp only [isPlace, Bool.or_eq_true, beq_iff_eq, or_assoc] at place
    rcases place with rfl | rfl | rfl
    · exact .inl ⟨rfl, hb⟩
    · exact .inr (.inl ⟨rfl, hb⟩)
    · exact .inr (.inr ⟨rfl, hb⟩)
  · rintro (⟨rfl, hb⟩ | ⟨rfl, hb⟩ | ⟨rfl, hb⟩)
    · exact hb
    · exact hb
    · exact hb

/-- Two texts are the same destination exactly if they have the same letters. -/
theorem Destination.eq_iff_of_ofText? {t t' : Text} {dest dest' : Destination}
    (h : ofText? t = some dest) (h' : ofText? t' = some dest') :
    dest = dest' ↔ ∀ b, b ∈ t ↔ b ∈ t' := by
  constructor
  · rintro rfl b
    rw [mem_iff_of_ofText? h, mem_iff_of_ofText? h']
  · intro same
    rw [eq_of_ofText? h, eq_of_ofText? h']
    simp only [List.contains_eq_mem, same]

/-! ## Words -/

/-- An instruction is determined by its word. -/
theorem Instruction.encode_inj {i i' : Instruction} : i.encode = i'.encode ↔ i = i' := by
  constructor
  · intro same
    have decoded := i.decode_encode
    rw [same, i'.decode_encode] at decoded
    exact (Except.ok.inj decoded).symm
  · rintro rfl
    rfl

/-- Two spellings of compute instructions have the same word exactly if their destinations have the
same letters, their computations the same canonical text, and their jumps the same name.

The canonical text of any text whatever is its own canonical text, and has the same bits, or neither
has any.  These are also the bits that are found with `A` in place of `M` in the table of the
computations on registers. -/
theorem same_word_iff_same_canonical :
    (∀ dest comp jump dest' comp' jump' w w', Emission.computeWord dest comp jump = .ok w →
      Emission.computeWord dest' comp' jump' = .ok w' →
      (w = w' ↔ (∀ b, b ∈ dest ↔ b ∈ dest') ∧
        Computation.canonical comp = Computation.canonical comp' ∧ jump = jump')) ∧
    ∀ comp, Computation.canonical (Computation.canonical comp) = Computation.canonical comp ∧
      Computation.bits? (Computation.canonical comp) = Computation.bits? comp ∧
      Computation.bits? comp = Computation.tableBits? comp := by
  refine ⟨?_, fun comp => ⟨Computation.canonical_canonical comp, Computation.bits?_canonical comp,
    Computation.bits?_eq_tableBits? comp⟩⟩
  intro dest comp jump dest' comp' jump' w w' word word'
  obtain ⟨i, fields, rfl⟩ := Emission.computeWord_eq_ok word
  obtain ⟨i', fields', rfl⟩ := Emission.computeWord_eq_ok word'
  obtain ⟨d, c, j, rfl, hd, hc, hj⟩ := Instruction.ofFields_eq_ok fields
  obtain ⟨d', c', j', rfl, hd', hc', hj'⟩ := Instruction.ofFields_eq_ok fields'
  rw [Instruction.encode_inj, Instruction.compute.injEq, Destination.eq_iff_of_ofText? hd hd',
    Computation.eq_iff_of_ofText? hc hc', Jump.eq_iff_of_ofText? hj hj']

/-- The instruction `MD=D+M;JGT` with its letters in another order and its operands exchanged. -/
theorem same_word_iff_same_canonical_exchanged :
    Emission.computeWord (Text.ascii "MD") (Text.ascii "D+M") (Text.ascii "JGT") =
        .ok 0b1111000010011001 ∧
      Emission.computeWord (Text.ascii "DMD") (Text.ascii "M+D") (Text.ascii "JGT") =
        .ok 0b1111000010011001 ∧
      Computation.canonical (Text.ascii "D+M") = Computation.canonical (Text.ascii "M+D") := by
  have usual : Emission.computeWord (Text.ascii "MD") (Text.ascii "D+M") (Text.ascii "JGT") =
      .ok 0b1111000010011001 := by decide
  have other : Emission.computeWord (Text.ascii "DMD") (Text.ascii "M+D") (Text.ascii "JGT") =
      .ok 0b1111000010011001 := by decide
  exact ⟨usual, other,
    ((same_word_iff_same_canonical.1 _ _ _ _ _ _ _ _ usual other).1 rfl).2.1⟩

end HackMachine
