import HackMachine.Text.Glyph
import Mathlib.Data.List.Basic

/-!
# What is deleted as white space

`withoutBlanks` reads a text as glyphs and drops those that are blank.  The same can be said of the
bytes alone, without a reading: where the bytes of a white-space character stand they are deleted, and
every other byte is kept (`Squeezed`).

* `bytes_of_code?`: a glyph that has a code point is the encoding of that character.
* `first_of_encoded`: the encoding of a white-space character is read as that character, whatever
  follows it.
* `withoutBlanks_eq_iff`: both descriptions agree, on every list of bytes.

A glyph can be longer than one byte, and `Squeezed` looks at its bytes one by one.  It cannot go wrong
behind the first, since the others are continuation bytes and no character starts with such a byte.
-/

namespace HackMachine
namespace Text

/-- The code points with the property `White_Space`. -/
def whiteSpaceCodes : List Nat :=
  List.range' 0x09 5 ++ [0x20, 0x85, 0xA0, 0x1680] ++ List.range' 0x2000 11 ++
    [0x2028, 0x2029, 0x202F, 0x205F, 0x3000]

/-- The white-space characters. -/
def whiteSpace : List Char := whiteSpaceCodes.map Char.ofNat

/-- The second text is the first without the bytes of its white-space characters. -/
inductive Squeezed : Text → Text → Prop
  | nil : Squeezed [] []
  | delete {c : Char} {t u : Text} : c ∈ whiteSpace → Squeezed t u →
      Squeezed (String.utf8EncodeChar c ++ t) u
  | keep {b : UInt8} {t u : Text} : (∀ c ∈ whiteSpace, ¬ String.utf8EncodeChar c <+: b :: t) →
      Squeezed t u → Squeezed (b :: t) (b :: u)

/-! ## The first glyph of a text -/

namespace Glyph

theorem isContinuation_iff {b : UInt8} :
    isContinuation b ↔ 128 ≤ b.toNat ∧ b.toNat ≤ 191 := by
  simp only [isContinuation, Bool.and_eq_true, decide_eq_true_eq, UInt8.le_iff_toNat_le]
  exact Iff.rfl

/-- The first glyph of a text is a byte of ASCII, a stray byte, or a first byte with its tail. -/
theorem first_cases (lead : UInt8) (rest : Text) :
    (lead.toNat < 128 ∧ first lead rest = ⟨[lead], some lead.toNat⟩) ∨
      first lead rest = ⟨[lead], none⟩ ∨
      ∃ shape, tailOf lead = some shape ∧ shape.accepts (rest.take (shape.more + 1)) = true ∧
        first lead rest = ⟨lead :: rest.take (shape.more + 1),
          some (codePoint lead (rest.take (shape.more + 1)))⟩ := by
  by_cases small : lead < 0x80
  · exact .inl ⟨UInt8.lt_iff_toNat_lt.1 small, first_of_lt small rest⟩
  · right
    unfold first
    rw [if_neg small]
    cases found : tailOf lead with
    | none => exact .inl rfl
    | some shape =>
      by_cases ok : shape.accepts (rest.take (shape.more + 1)) = true
      · exact .inr ⟨shape, rfl, ok, if_pos ok⟩
      · exact .inl (if_neg ok)

theorem Tail.accepts_iff {shape : Tail} {tail : Text} :
    shape.accepts tail = true ↔ ∃ x rest, tail = x :: rest ∧
      shape.lowest.toNat ≤ x.toNat ∧ x.toNat ≤ shape.highest.toNat ∧
      rest.length = shape.more ∧ ∀ b ∈ rest, isContinuation b = true := by
  cases tail with
  | nil => simp [accepts]
  | cons x rest =>
    simp only [accepts, Bool.and_eq_true, decide_eq_true_eq, UInt8.le_iff_toNat_le, beq_iff_eq,
      List.all_eq_true, and_assoc, List.cons.injEq, exists_and_left, exists_eq_left']

/-- What the bytes of a longer glyph are, by the number of bytes behind the first. -/
theorem tailOf_cases {lead : UInt8} {shape : Tail} (h : tailOf lead = some shape) :
    (shape.more = 0 ∧ 194 ≤ lead.toNat ∧ lead.toNat ≤ 223 ∧ 128 ≤ shape.lowest.toNat ∧
        shape.highest.toNat ≤ 191) ∨
      (shape.more = 1 ∧ 224 ≤ lead.toNat ∧ lead.toNat ≤ 239 ∧ 128 ≤ shape.lowest.toNat ∧
        (225 ≤ lead.toNat ∨ 160 ≤ shape.lowest.toNat) ∧ shape.highest.toNat ≤ 191) ∨
      (shape.more = 2 ∧ 240 ≤ lead.toNat ∧ lead.toNat ≤ 244 ∧ 128 ≤ shape.lowest.toNat ∧
        (241 ≤ lead.toNat ∨ 144 ≤ shape.lowest.toNat) ∧ shape.highest.toNat ≤ 191) := by
  simp only [tailOf, UInt8.lt_iff_toNat_lt, UInt8.le_iff_toNat_le, ← UInt8.toNat_inj,
    UInt8.reduceToNat] at h
  repeat' split at h
  all_goals cases h
  all_goals simp only [UInt8.reduceToNat, true_and]; omega

/-- The bytes of a glyph behind the first are continuation bytes. -/
theorem isContinuation_of_mem_tail {shape : Tail} {lead : UInt8} {tail : Text}
    (h : tailOf lead = some shape) (ok : shape.accepts tail = true) :
    ∀ b ∈ tail, isContinuation b = true := by
  obtain ⟨x, rest, rfl, low, high, -, others⟩ := Tail.accepts_iff.1 ok
  intro b hb
  rcases List.mem_cons.1 hb with rfl | hb
  · have bounds := tailOf_cases h
    exact isContinuation_iff.2 (by omega)
  · exact others b hb

/-- The first glyph is its first byte and continuation bytes, and the text goes on behind it. -/
theorem exists_bytes_first (lead : UInt8) (rest : Text) :
    ∃ tail after, (first lead rest).bytes = lead :: tail ∧ rest = tail ++ after ∧
      rest.drop ((first lead rest).bytes.length - 1) = after ∧
      ∀ b ∈ tail, isContinuation b = true := by
  rcases first_cases lead rest with ⟨-, h⟩ | h | ⟨shape, found, ok, h⟩
  · rw [h]
    exact ⟨[], rest, rfl, rfl, rfl, nofun⟩
  · rw [h]
    exact ⟨[], rest, rfl, rfl, rfl, nofun⟩
  · rw [h]
    obtain ⟨x, more, whole, -, -, length, -⟩ := Tail.accepts_iff.1 ok
    have complete : (rest.take (shape.more + 1)).length = shape.more + 1 := by
      rw [whole, List.length_cons, length]
    refine ⟨rest.take (shape.more + 1), rest.drop (shape.more + 1), rfl,
      (List.take_append_drop ..).symm, ?_, isContinuation_of_mem_tail found ok⟩
    rw [List.length_cons, complete, Nat.add_sub_cancel]

/-! ## The bytes of a character -/

theorem encode_two {c : Char} {lead x : UInt8} (hl : 194 ≤ lead.toNat ∧ lead.toNat ≤ 223)
    (hx : 128 ≤ x.toNat ∧ x.toNat ≤ 191)
    (value : 64 * (lead.toNat % 32) + x.toNat % 64 = c.val.toNat) :
    String.utf8EncodeChar c = [lead, x] := by
  have size : 127 < c.val.toNat ∧ c.val.toNat ≤ 2047 := by omega
  rw [String.utf8EncodeChar, if_neg (Nat.not_le.2 size.1), if_pos size.2]
  simp only [List.cons.injEq, ← UInt8.toNat_inj, UInt8.toNat_ofNat', and_true]
  exact ⟨by omega, by omega⟩

theorem encode_three {c : Char} {lead x y : UInt8} (hl : 224 ≤ lead.toNat ∧ lead.toNat ≤ 239)
    (hx : 128 ≤ x.toNat ∧ x.toNat ≤ 191) (hy : 128 ≤ y.toNat ∧ y.toNat ≤ 191)
    (long : 225 ≤ lead.toNat ∨ 160 ≤ x.toNat)
    (value : 64 * (64 * (lead.toNat % 16) + x.toNat % 64) + y.toNat % 64 = c.val.toNat) :
    String.utf8EncodeChar c = [lead, x, y] := by
  have size : 2047 < c.val.toNat ∧ c.val.toNat ≤ 65535 := by omega
  rw [String.utf8EncodeChar, if_neg (by omega), if_neg (Nat.not_le.2 size.1), if_pos size.2]
  simp only [List.cons.injEq, ← UInt8.toNat_inj, UInt8.toNat_ofNat', and_true]
  exact ⟨by omega, by omega, by omega⟩

theorem encode_four {c : Char} {lead x y z : UInt8} (hl : 240 ≤ lead.toNat ∧ lead.toNat ≤ 244)
    (hx : 128 ≤ x.toNat ∧ x.toNat ≤ 191) (hy : 128 ≤ y.toNat ∧ y.toNat ≤ 191)
    (hz : 128 ≤ z.toNat ∧ z.toNat ≤ 191) (long : 241 ≤ lead.toNat ∨ 144 ≤ x.toNat)
    (value : 64 * (64 * (64 * (lead.toNat % 8) + x.toNat % 64) + y.toNat % 64) + z.toNat % 64 =
      c.val.toNat) :
    String.utf8EncodeChar c = [lead, x, y, z] := by
  have size : 65535 < c.val.toNat := by omega
  rw [String.utf8EncodeChar, if_neg (by omega), if_neg (by omega), if_neg (Nat.not_le.2 size)]
  simp only [List.cons.injEq, ← UInt8.toNat_inj, UInt8.toNat_ofNat', and_true]
  exact ⟨by omega, by omega, by omega, by omega⟩

/-- A glyph that has a code point is the encoding of that character. -/
theorem bytes_of_code? {lead : UInt8} {rest : Text} {c : Char}
    (h : (first lead rest).code? = some c.toNat) :
    (first lead rest).bytes = String.utf8EncodeChar c := by
  rcases first_cases lead rest with ⟨small, first⟩ | first | ⟨shape, found, ok, first⟩
  · rw [first] at h ⊢
    have value : lead.toNat = c.val.toNat := Option.some.inj h
    rw [String.utf8EncodeChar, ← value, if_pos (by omega), UInt8.ofNat_toNat]
  · rw [first] at h
    cases h
  · rw [first] at h ⊢
    have value : codePoint lead (rest.take (shape.more + 1)) = c.val.toNat := Option.some.inj h
    obtain ⟨x, others, whole, low, high, length, continued⟩ := Tail.accepts_iff.1 ok
    rw [whole] at value ⊢
    rw [codePoint, List.length_cons, length] at value
    rcases tailOf_cases found with ⟨two, bounds⟩ | ⟨three, bounds⟩ | ⟨four, bounds⟩
    · obtain rfl : others = [] := List.eq_nil_of_length_eq_zero (length.trans two)
      rw [two] at value
      exact (encode_two (by omega) (by omega) value).symm
    · obtain ⟨y, rfl⟩ := List.length_eq_one_iff.1 (length.trans three)
      have hy := isContinuation_iff.1 (continued y List.mem_cons_self)
      rw [three] at value
      exact (encode_three (by omega) (by omega) hy (by omega) value).symm
    · obtain ⟨y, z, rfl⟩ := List.length_eq_two.1 (length.trans four)
      have hy := isContinuation_iff.1 (continued y List.mem_cons_self)
      have hz := isContinuation_iff.1 (continued z (List.mem_cons_of_mem _ List.mem_cons_self))
      rw [four] at value
      exact (encode_four (by omega) (by omega) hy hz (by omega) value).symm

/-- A glyph is read as such whatever follows it. -/
theorem first_append {lead : UInt8} {tail : Text} {n : Nat}
    (h : first lead tail = ⟨lead :: tail, some n⟩) (t : Text) :
    first lead (tail ++ t) = ⟨lead :: tail, some n⟩ := by
  rcases first_cases lead tail with ⟨small, single⟩ | stray | ⟨shape, found, ok, whole⟩
  · rw [single] at h
    obtain ⟨same, code⟩ := Glyph.mk.inj h
    obtain rfl : tail = [] := (List.cons.inj same).2.symm
    rw [first_of_lt (UInt8.lt_iff_toNat_lt.2 small), code]
  · rw [stray] at h
    cases h
  · obtain ⟨x, others, complete, -, -, length, -⟩ := Tail.accepts_iff.1 ok
    have high : ¬ lead < 0x80 := by
      have bounds := tailOf_cases found
      rw [UInt8.lt_iff_toNat_lt]
      change ¬ lead.toNat < 128
      omega
    rw [whole] at h
    obtain ⟨same, code⟩ := Glyph.mk.inj h
    have taken : tail.take (shape.more + 1) = tail := (List.cons.inj same).2
    have enough : (tail ++ t).take (shape.more + 1) = tail := by
      rw [taken] at complete
      exact List.take_left' (by rw [complete, List.length_cons, length])
    rw [taken] at ok code
    unfold first
    rw [if_neg high, found]
    simp only [enough, ok, if_true, code]

/-! ## White space -/

/-- A blank glyph is the encoding of a white-space character. -/
theorem exists_whiteSpace_of_isBlank {lead : UInt8} {rest : Text}
    (h : (first lead rest).isBlank = true) :
    ∃ c ∈ whiteSpace, (first lead rest).bytes = String.utf8EncodeChar c := by
  obtain ⟨n, code, blank⟩ := (Option.any_eq_true ..).1 h
  have listed : n ∈ whiteSpaceCodes := by
    simp only [isBlankCode, Bool.or_eq_true, Bool.and_eq_true, decide_eq_true_eq, beq_iff_eq]
      at blank
    simp only [whiteSpaceCodes, List.mem_append, List.mem_range'_1, List.mem_cons, List.not_mem_nil]
    omega
  have same : (Char.ofNat n).toNat = n :=
    (by decide : ∀ n ∈ whiteSpaceCodes, (Char.ofNat n).toNat = n) n listed
  exact ⟨Char.ofNat n, List.mem_map_of_mem listed, bytes_of_code? (code.trans (by rw [same]))⟩

/-- The encoding of a white-space character is read as a blank glyph, whatever follows. -/
theorem first_of_encoded {c : Char} (h : c ∈ whiteSpace) (t : Text) :
    ∃ lead tail, String.utf8EncodeChar c = lead :: tail ∧
      (first lead (tail ++ t)).bytes = lead :: tail ∧
      (first lead (tail ++ t)).isBlank = true := by
  obtain ⟨n, hn, rfl⟩ := List.mem_map.1 h
  obtain ⟨alone, blank⟩ := (by decide : ∀ n ∈ whiteSpaceCodes,
    glyphs (String.utf8EncodeChar (Char.ofNat n)) =
        [⟨String.utf8EncodeChar (Char.ofNat n), some n⟩] ∧ isBlankCode n = true) n hn
  cases encoded : String.utf8EncodeChar (Char.ofNat n) with
  | nil =>
    rw [encoded] at alone
    cases alone
  | cons lead tail =>
    rw [encoded, glyphs_cons] at alone
    have read := first_append (List.cons.inj alone).1 t
    refine ⟨lead, tail, rfl, ?_, ?_⟩
    · rw [read]
    · rw [read]
      exact blank

end Glyph

/-- The first glyph goes if it is blank, and the rest is treated alike. -/
theorem withoutBlanks_cons (lead : UInt8) (rest : Text) :
    withoutBlanks (lead :: rest) =
      (if (Glyph.first lead rest).isBlank then [] else (Glyph.first lead rest).bytes) ++
        withoutBlanks (rest.drop ((Glyph.first lead rest).bytes.length - 1)) := by
  rw [withoutBlanks, glyphs_cons, List.filter_cons]
  cases (Glyph.first lead rest).isBlank
  · exact List.flatMap_cons
  · rfl

/-- The bytes of a white-space character are deleted. -/
theorem withoutBlanks_encoded {c : Char} (h : c ∈ whiteSpace) (t : Text) :
    withoutBlanks (String.utf8EncodeChar c ++ t) = withoutBlanks t := by
  obtain ⟨lead, tail, encoded, bytes, blank⟩ := Glyph.first_of_encoded h t
  rw [encoded, List.cons_append, withoutBlanks_cons, bytes, blank, if_pos rfl, List.length_cons,
    Nat.add_sub_cancel, List.drop_left, List.nil_append]

/-- Continuation bytes without a first byte are stray, so they are kept. -/
theorem withoutBlanks_append_of_continuation {s : Text}
    (h : ∀ b ∈ s, Glyph.isContinuation b = true) (t : Text) :
    withoutBlanks (s ++ t) = s ++ withoutBlanks t := by
  induction s with
  | nil => rfl
  | cons b s ih =>
    obtain ⟨first, others⟩ := List.forall_mem_cons.1 h
    have bounds := Glyph.isContinuation_iff.1 first
    have stray : Glyph.first b (s ++ t) = ⟨[b], none⟩ := by
      rcases Glyph.first_cases b (s ++ t) with ⟨small, -⟩ | stray | ⟨shape, found, -, -⟩
      · omega
      · exact stray
      · have := Glyph.tailOf_cases found
        omega
    rw [List.cons_append, withoutBlanks_cons, stray]
    exact congrArg (b :: ·) (ih others)

/-- A byte that starts no white-space character is kept. -/
theorem withoutBlanks_cons_of_not_encoded {b : UInt8} {t : Text}
    (h : ∀ c ∈ whiteSpace, ¬ String.utf8EncodeChar c <+: b :: t) :
    withoutBlanks (b :: t) = b :: withoutBlanks t := by
  obtain ⟨tail, after, bytes, rfl, rest, continued⟩ := Glyph.exists_bytes_first b t
  have solid : (Glyph.first b (tail ++ after)).isBlank = false := by
    rw [Bool.eq_false_iff]
    intro blank
    obtain ⟨c, hc, encoded⟩ := Glyph.exists_whiteSpace_of_isBlank blank
    refine h c hc ⟨after, ?_⟩
    rw [← encoded, bytes, List.cons_append]
  rw [withoutBlanks_cons, rest, solid, bytes, withoutBlanks_append_of_continuation continued]
  rfl

/-- What is left of a text is determined by its bytes, one after the other. -/
theorem squeezed_withoutBlanks (t : Text) : Squeezed t (withoutBlanks t) := by
  by_cases h : ∃ c ∈ whiteSpace, String.utf8EncodeChar c <+: t
  · obtain ⟨c, hc, rest, whole⟩ := h
    rw [← whole, withoutBlanks_encoded hc]
    exact .delete hc (squeezed_withoutBlanks rest)
  · cases t with
    | nil => exact .nil
    | cons b t =>
      have other : ∀ c ∈ whiteSpace, ¬ String.utf8EncodeChar c <+: b :: t :=
        fun c hc encoded => h ⟨c, hc, encoded⟩
      rw [withoutBlanks_cons_of_not_encoded other]
      exact .keep other (squeezed_withoutBlanks t)
termination_by t.length
decreasing_by
  · rw [← whole, List.length_append, String.length_utf8EncodeChar]
    have := c.utf8Size_pos
    omega
  · exact Nat.lt_succ_self _

/-- Deleting the blanks of a text is deleting the bytes of its white-space characters. -/
theorem withoutBlanks_eq_iff {t u : Text} : withoutBlanks t = u ↔ Squeezed t u := by
  constructor
  · rintro rfl
    exact squeezed_withoutBlanks t
  · intro h
    induction h with
    | nil => rfl
    | delete hc _ ih => rw [withoutBlanks_encoded hc, ih]
    | keep other _ ih => rw [withoutBlanks_cons_of_not_encoded other, ih]

end Text
end HackMachine
