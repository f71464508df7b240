import HackMachine.Command.Input
import HackMachine.Proofs.Source
import Mathlib.Data.List.Forall2
import Mathlib.Data.Nat.Digits.Defs

/-!
# Listings

A listing has a line of sixteen binary digits for each word.  Such a line is plain, so a listing is
read as its lines (`read_listing`), and each line gives its word back (`Word.ofBinary_binary`).  A
listing therefore determines the words it was made from (`listingWords_listing`).

Nothing but the sixteen digits of a word is read as this word (`Word.ofBinary_eq_ok_iff`), so words
and lines correspond to each other, and so do lists of words and listings (`listing_is_faithful`).

A listing of instructions is read line by line in the same way, and is only as good as each of its
lines (`listingInstructions_eq_ok_iff`).
-/

namespace HackMachine

namespace Word

/-! ## The digits of a word -/

theorem isBinaryDigit_binaryDigit (b : Bool) : isBinaryDigit (binaryDigit b) = true := by
  cases b <;> rfl

theorem binaryDigit_beq_one (b : Bool) : (binaryDigit b == Text.byte '1') = b := by
  cases b <;> rfl

/-- Sixteen digits give back the word they were made from. -/
theorem ofBinary_binary (w : Word) : ofBinary w.binary = .ok w := by
  have digits : w.binary.all isBinaryDigit = true := by
    rw [binary, List.all_map, List.all_eq_true]
    intro b _
    exact isBinaryDigit_binaryDigit b
  have back : w.binary.map (· == Text.byte '1') = w.bits := by
    rw [binary, List.map_map]
    exact (List.map_congr_left fun b _ => binaryDigit_beq_one b).trans (List.map_id _)
  rw [ofBinary, if_neg (by simp), if_pos digits, back, ofBits_bits]

theorem isBinaryDigit_iff {b : UInt8} :
    isBinaryDigit b = true ↔ b = Text.byte '0' ∨ b = Text.byte '1' := by
  simp [isBinaryDigit]

theorem binaryDigit_of_isBinaryDigit {b : UInt8} (h : isBinaryDigit b = true) :
    binaryDigit (b == Text.byte '1') = b := by
  rcases isBinaryDigit_iff.1 h with rfl | rfl <;> rfl

/-- Sixteen binary digits are read as some word, and nothing else is. -/
theorem exists_ofBinary_iff {t : Text} :
    (∃ w, ofBinary t = .ok w) ↔
      t.length = 16 ∧ ∀ b ∈ t, b = Text.byte '0' ∨ b = Text.byte '1' := by
  simp only [← isBinaryDigit_iff, ← List.all_eq_true, ofBinary]
  by_cases length : t.length = 16
  · by_cases digits : t.all isBinaryDigit = true
    · simp [length, digits]
    · simp [length, digits]
  · simp [length]

/-- The digits that are read as a word are those the word is written with. -/
theorem ofBinary_eq_ok_iff {t : Text} {w : Word} : ofBinary t = .ok w ↔ w.binary = t := by
  refine ⟨fun h => ?_, fun h => h ▸ ofBinary_binary w⟩
  obtain ⟨length, digits⟩ := exists_ofBinary_iff.1 ⟨w, h⟩
  have all : t.all isBinaryDigit = true :=
    List.all_eq_true.2 fun b hb => isBinaryDigit_iff.2 (digits b hb)
  rw [ofBinary, if_neg (not_not.2 length), if_pos all] at h
  cases h
  rw [binary, bits_ofBits (by rw [List.length_map, length]), List.map_map]
  refine (List.map_congr_left fun b hb => ?_).trans (List.map_id t)
  exact binaryDigit_of_isBinaryDigit (List.all_eq_true.1 all b hb)

/-- Bits denote a number by their places. -/
theorem valueOfBits_eq_ofDigits (bits : List Bool) :
    valueOfBits bits = Nat.ofDigits 2 (bits.reverse.map Bool.toNat) := by
  rw [valueOfBits, Nat.ofDigits_eq_foldr, List.map_reverse, List.foldr_reverse, List.foldl_map]
  simp only [Nat.cast_id, Nat.add_comm]

/-- The digits of a word denote it in the binary system. -/
theorem toNat_eq_ofDigits (w : Word) :
    w.toNat =
      Nat.ofDigits 2 (w.binary.reverse.map fun b => if b = Text.byte '1' then 1 else 0) := by
  have places : w.binary.map (fun b => if b = Text.byte '1' then 1 else 0) =
      w.bits.map Bool.toNat := by
    rw [binary, List.map_map]
    refine List.map_congr_left fun b _ => ?_
    cases b <;> rfl
  rw [List.map_reverse, places, ← List.map_reverse, ← valueOfBits_eq_ofDigits,
    ← toNat_ofBits (length_bits w), ofBits_bits]

/-- The digits of a word are a line that is read as it stands. -/
theorem isPlain_binary (w : Word) : Source.IsPlain w.binary := by
  have digit : ∀ c ∈ w.binary, c = Text.byte '0' ∨ c = Text.byte '1' := by
    intro c hc
    obtain ⟨b, -, rfl⟩ := List.mem_map.1 hc
    cases b
    · exact .inl rfl
    · exact .inr rfl
  have visible : ∀ c ∈ w.binary, Text.isVisible c := by
    intro c hc
    rcases digit c hc with rfl | rfl <;> rfl
  have other : ∀ c, c ≠ Text.byte '0' → c ≠ Text.byte '1' → c ∉ w.binary := by
    intro c noZero noOne hc
    exact (digit c hc).elim noZero noOne
  refine ⟨Source.clean_of_visible visible (other _ (by decide) (by decide)), ?_,
    other _ (by decide) (by decide), ?_⟩
  · rw [← List.length_pos_iff, length_binary]
    decide
  · rw [length_binary]
    decide

end Word

/-! ## The lines of a listing -/

/-- A listing is read as the digits of its words, numbered from one on. -/
theorem read_listing (words : Array Word) :
    Source.read (listing words) =
      .ok ((words.toList.zipIdx 1).map fun entry => ⟨entry.2, entry.1.binary⟩) :=
  Source.read_flatMap_of_plain fun w _ => w.isPlain_binary

theorem lineWord_binary (n : Int) (w : Word) : lineWord ⟨n, w.binary⟩ = .ok w := by
  rw [lineWord, Word.ofBinary_binary]
  rfl

/-- The words of a listing are those it was made from. -/
theorem listingWords_listing (words : Array Word) :
    listingWords (listing words) = .ok words.toList := by
  have onLine : (lineWord ∘ fun entry : Word × Nat => ⟨entry.2, entry.1.binary⟩) =
      fun entry : Word × Nat => pure entry.1 := by
    funext entry
    exact lineWord_binary entry.2 entry.1
  rw [listingWords, inputLines, read_listing]
  show List.mapM lineWord ((words.toList.zipIdx 1).map _) = .ok words.toList
  rw [List.mapM_map, onLine, List.mapM_pure, List.zipIdx_map_fst]
  rfl

/-! ## The size of a listing -/

theorem length_listing (words : Array Word) : (listing words).length = 17 * words.size := by
  have line : ∀ w : Word, (w.binary ++ [Text.newline]).length = 17 := by
    intro w
    rw [List.length_append, Word.length_binary, List.length_singleton]
  simp only [listing, List.length_flatMap, line, List.map_const', List.sum_replicate_nat]
  rw [Array.length_toList, Nat.mul_comm]

/-- Lines that are added up one by one come to the length of the text. -/
theorem foldl_length (line : Word → Text) (words : List Word) (size : Int64) :
    words.foldl (fun size w => size + Int64.ofNat (line w).length) size =
      size + Int64.ofNat (words.flatMap line).length := by
  induction words generalizing size with
  | nil => exact (Int64.add_zero size).symm
  | cons w words ih =>
    rw [List.foldl_cons, ih, List.flatMap_cons, List.length_append, Int64.ofNat_add,
      Int64.add_assoc]

theorem listingSize_eq (words : Array Word) :
    listingSize words = Int64.ofNat (listing words).length := by
  rw [listingSize, foldl_length fun w => w.binary ++ [Text.newline], Int64.zero_add]
  rfl

/-! ## A faithful format -/

/-- Listings determine their words, and words their listings.

* A text is read as a word exactly if it consists of sixteen binary digits.
* These are the digits that the word is written with, and they denote it in the binary system.
* A listing has seventeen bytes for each word, and this is the size that is reported.
* Read line by line, a listing gives back the words it was made from, each on its own line. -/
theorem listing_is_faithful :
    (∀ t : Text, (∃ w, Word.ofBinary t = .ok w) ↔
      t.length = 16 ∧ ∀ b ∈ t, b = Text.byte '0' ∨ b = Text.byte '1') ∧
    (∀ t w, Word.ofBinary t = .ok w → w.binary = t ∧
      w.toNat = Nat.ofDigits 2 (t.reverse.map fun b => if b = Text.byte '1' then 1 else 0)) ∧
    ∀ words : Array Word,
      (listing words).length = 17 * words.size ∧
      listingSize words = Int64.ofNat (17 * words.size) ∧
      ∃ lines, Source.read (listing words) = .ok lines ∧
        lines.map (fun line => (line.number, Word.ofBinary line.text)) =
          (words.toList.zipIdx 1).map fun entry => ((entry.2 : Int), .ok entry.1) := by
  refine ⟨fun t => Word.exists_ofBinary_iff, ?_, fun words => ?_⟩
  · intro t w read
    obtain rfl := Word.ofBinary_eq_ok_iff.1 read
    exact ⟨rfl, w.toNat_eq_ofDigits⟩
  · refine ⟨length_listing words, ?_, _, read_listing words, ?_⟩
    · rw [listingSize_eq, length_listing]
    · rw [List.map_map]
      refine List.map_congr_left fun entry _ => ?_
      simp only [Function.comp_apply, Word.ofBinary_binary]

/-! ## The instructions of a listing -/

/-- A function that may fail succeeds on a list if it succeeds on each member. -/
theorem mapM_eq_ok_iff {ε α β : Type} {f : α → Except ε β} {as : List α} {bs : List β} :
    as.mapM f = .ok bs ↔ List.Forall₂ (fun a b => f a = .ok b) as bs := by
  induction as generalizing bs with
  | nil =>
    rw [List.mapM_nil, List.forall₂_nil_left_iff]
    exact ⟨fun h => (Except.ok.inj h).symm, fun h => congrArg Except.ok h.symm⟩
  | cons a as ih =>
    rw [List.mapM_cons, List.forall₂_cons_left_iff]
    cases first : f a with
    | error why =>
      constructor
      · intro h
        cases h
      · rintro ⟨b, bs', found, -⟩
        cases found
    | ok b =>
      cases rest : as.mapM f with
      | error why =>
        constructor
        · intro h
          cases h
        · rintro ⟨b', bs', -, found, -⟩
          cases rest.symm.trans (ih.2 found)
      | ok bs' =>
        constructor
        · intro h
          cases h
          exact ⟨b, bs', rfl, ih.1 rest, rfl⟩
        · rintro ⟨b', bs'', found, founds, rfl⟩
          cases found
          cases rest.symm.trans (ih.2 founds)
          rfl

theorem lineInstruction_eq_ok_iff {line : SourceLine} {i : Instruction} :
    lineInstruction line = .ok i ↔
      ∃ word, Word.ofBinary line.text = .ok word ∧ Instruction.decode word = .ok i := by
  rw [lineInstruction, lineWord]
  cases Word.ofBinary line.text with
  | error fault => simp [Except.mapError]
  | ok word =>
    cases decoded : Instruction.decode word with
    | error why => simp [Except.mapError, decoded]
    | ok j => simp [Except.mapError, decoded]

/-- The lines of a listing and the instructions on them. -/
def IsInstructionListing (t : Text) (instructions : List Instruction) : Prop :=
  ∃ lines, Source.read t = .ok lines ∧
    List.Forall₂ (fun line i =>
      ∃ word, Word.ofBinary line.text = .ok word ∧ Instruction.decode word = .ok i) lines
        instructions

/-- The instructions of a listing are those on its lines, if there is one on every line. -/
theorem listingInstructions_eq_ok_iff {t : Text} {instructions : List Instruction} :
    listingInstructions t = .ok instructions ↔ IsInstructionListing t instructions := by
  rw [listingInstructions, IsInstructionListing, inputLines]
  cases Source.read t with
  | error fault => simp [Except.mapError, bind, Except.bind]
  | ok lines =>
    show List.mapM lineInstruction lines = .ok instructions ↔ _
    simp only [mapM_eq_ok_iff, lineInstruction_eq_ok_iff, Except.ok.injEq, exists_eq_left']

end HackMachine
