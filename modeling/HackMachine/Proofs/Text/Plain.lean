import HackMachine.Text.Glyph
import Mathlib.Data.List.TakeWhile

/-!
# Cutting and trimming plain text

Texts that are put together from parts come apart again at the bytes between the parts: `cut` at the
first of them (`cut_append`), `splitOn` at all of them (`splitOn_flatMap`, `splitOn_joinWith`), as
long as these bytes do not occur in a part.

A byte is *visible* if it is an ASCII character with a glyph of its own.  A text of visible bytes
has no blanks, so `trim` and `withoutBlanks` leave it alone (`trim_of_visible`,
`withoutBlanks_of_visible`).
-/

namespace HackMachine
namespace Text

variable {sep : UInt8} {t : Text}

/-! ## Cutting -/

theorem bne_of_not_mem (h : sep ∉ t) : ∀ b ∈ t, (b != sep) = true := by
  intro b hb
  rw [bne_iff_ne]
  rintro rfl
  exact h hb

theorem cut_of_not_mem (h : sep ∉ t) : cut sep t = (t, none) := by
  have keep := bne_of_not_mem h
  rw [cut, List.takeWhile_eq_self_iff.2 keep, List.dropWhile_eq_nil_iff.2 keep]
  rfl

/-- A text is cut where the separator stands for the first time. -/
theorem cut_append (h : sep ∉ t) (rest : Text) : cut sep (t ++ sep :: rest) = (t, some rest) := by
  have keep := bne_of_not_mem h
  rw [cut, List.takeWhile_append_of_pos keep, List.dropWhile_append_of_pos keep]
  simp

/-- A text without the separator is not cut, and any other is cut at the first. -/
theorem cut_cases (sep : UInt8) (t : Text) :
    (sep ∉ t ∧ cut sep t = (t, none)) ∨
      ∃ front rest, sep ∉ front ∧ t = front ++ sep :: rest ∧ cut sep t = (front, some rest) := by
  by_cases h : sep ∈ t
  · obtain ⟨front, rest, rfl, first⟩ := List.eq_append_cons_of_mem h
    exact .inr ⟨front, rest, first, rfl, cut_append first rest⟩
  · exact .inl ⟨h, cut_of_not_mem h⟩

/-- What holds of texts without the separator, and of a text with it if it holds of what stands
behind the first, holds of every text. -/
@[elab_as_elim]
theorem cutInduction (sep : UInt8) {motive : Text → Prop} (t : Text)
    (whole : ∀ t, sep ∉ t → motive t)
    (parts : ∀ front rest, sep ∉ front → motive rest → motive (front ++ sep :: rest)) :
    motive t := by
  rcases cut_cases sep t with ⟨none, -⟩ | ⟨front, rest, none, same, -⟩
  · exact whole t none
  · rw [same]
    exact parts front rest none (cutInduction sep rest whole parts)
termination_by t.length
decreasing_by
  rw [same, List.length_append, List.length_cons]
  omega

theorem splitOn_append (h : sep ∉ t) (rest : Text) :
    splitOn sep (t ++ sep :: rest) = t :: splitOn sep rest := by
  induction t with
  | nil => exact splitOn_cons_self sep rest
  | cons b t ih =>
    rw [List.mem_cons, not_or] at h
    rw [List.cons_append, splitOn_cons_of_ne (Ne.symm h.1), ih h.2]
    rfl

theorem splitOn_of_not_mem (h : sep ∉ t) : splitOn sep t = [t] := by
  induction t with
  | nil => rfl
  | cons b t ih =>
    rw [List.mem_cons, not_or] at h
    rw [splitOn_cons_of_ne (Ne.symm h.1), ih h.2]
    rfl

/-- Parts that each end in the separator are found again, and the empty text behind the last. -/
theorem splitOn_flatMap {parts : List Text} (h : ∀ t ∈ parts, sep ∉ t) :
    splitOn sep (parts.flatMap (· ++ [sep])) = parts ++ [[]] := by
  induction parts with
  | nil => rfl
  | cons t parts ih =>
    obtain ⟨first, others⟩ := List.forall_mem_cons.1 h
    rw [List.flatMap_cons, List.append_assoc, List.singleton_append, splitOn_append first,
      ih others]
    rfl

/-- Parts that are joined are found again, if there is one at all. -/
theorem splitOn_joinWith {parts : List Text} (solid : parts ≠ []) (h : ∀ t ∈ parts, sep ∉ t) :
    splitOn sep (joinWith sep parts) = parts := by
  obtain ⟨t, parts, rfl⟩ := List.exists_cons_of_ne_nil solid
  induction parts generalizing t with
  | nil =>
    rw [joinWith, List.flatMap_nil, List.append_nil]
    exact splitOn_of_not_mem (h t List.mem_cons_self)
  | cons u parts ih =>
    obtain ⟨first, others⟩ := List.forall_mem_cons.1 h
    have behind := ih u (List.cons_ne_nil u parts) others
    rw [joinWith, List.flatMap_cons, List.cons_append, splitOn_append first, ← joinWith, behind]

/-! ## Visible bytes -/

/-- The ASCII characters that are neither blank nor a control character. -/
def isVisible (b : UInt8) : Bool := 0x21 ≤ b && b ≤ 0x7E

theorem isVisible_iff {b : UInt8} : isVisible b ↔ 33 ≤ b.toNat ∧ b.toNat ≤ 126 := by
  simp only [isVisible, Bool.and_eq_true, decide_eq_true_eq, UInt8.le_iff_toNat_le]
  exact Iff.rfl

/-- The glyph of an ASCII byte. -/
def Glyph.ofByte (b : UInt8) : Glyph := ⟨[b], some b.toNat⟩

theorem Glyph.isBlank_ofByte {b : UInt8} (h : isVisible b) : (ofByte b).isBlank = false := by
  have bounds := isVisible_iff.1 h
  simp [isBlank, ofByte, isBlankCode]
  omega

/-- A visible byte at the start of a text is a glyph by itself. -/
theorem glyphs_cons_of_visible {b : UInt8} (h : isVisible b) (t : Text) :
    glyphs (b :: t) = Glyph.ofByte b :: glyphs t := by
  have small : b < 0x80 := by
    have bounds := isVisible_iff.1 h
    rw [UInt8.lt_iff_toNat_lt]
    change b.toNat < 128
    omega
  rw [glyphs_cons, Glyph.first_of_lt small]
  rfl

/-- Each visible byte is a glyph by itself. -/
theorem glyphs_of_visible (h : ∀ b ∈ t, isVisible b) : glyphs t = t.map Glyph.ofByte := by
  induction t with
  | nil => rfl
  | cons b t ih =>
    obtain ⟨first, others⟩ := List.forall_mem_cons.1 h
    rw [glyphs_cons_of_visible first, ih others, List.map_cons]

theorem ofGlyphs_map_ofByte (t : Text) : ofGlyphs (t.map Glyph.ofByte) = t := by
  simp [ofGlyphs, List.flatMap_map, Glyph.ofByte]

/-- No glyph of a visible text is blank. -/
theorem not_isBlank_of_visible (h : ∀ b ∈ t, isVisible b) :
    ∀ g ∈ t.map Glyph.ofByte, ¬ g.isBlank = true := by
  intro g hg
  obtain ⟨b, hb, rfl⟩ := List.mem_map.1 hg
  rw [Glyph.isBlank_ofByte (h b hb)]
  exact Bool.false_ne_true

theorem trim_of_visible (h : ∀ b ∈ t, isVisible b) : trim t = t := by
  have solid := not_isBlank_of_visible h
  have front : (t.map Glyph.ofByte).dropWhile Glyph.isBlank = t.map Glyph.ofByte :=
    List.dropWhile_eq_self_iff.2 fun lt => solid _ (List.getElem_mem lt)
  have back : (t.map Glyph.ofByte).reverse.dropWhile Glyph.isBlank =
      (t.map Glyph.ofByte).reverse :=
    List.dropWhile_eq_self_iff.2 fun lt => solid _ (List.mem_reverse.1 (List.getElem_mem lt))
  rw [trim, glyphs_of_visible h, front, back, List.reverse_reverse, ofGlyphs_map_ofByte]

theorem withoutBlanks_of_visible (h : ∀ b ∈ t, isVisible b) : withoutBlanks t = t := by
  have solid := not_isBlank_of_visible h
  have all : (t.map Glyph.ofByte).filter (fun g => !g.isBlank) = t.map Glyph.ofByte := by
    rw [List.filter_eq_self]
    intro g hg
    simpa using solid g hg
  rw [withoutBlanks, glyphs_of_visible h, all, ofGlyphs_map_ofByte]

/-- A visible byte at the start of a text stays there. -/
theorem withoutBlanks_cons_of_visible {b : UInt8} (h : isVisible b) (t : Text) :
    withoutBlanks (b :: t) = b :: withoutBlanks t := by
  have solid : (!(Glyph.ofByte b).isBlank) = true := by
    rw [Glyph.isBlank_ofByte h]
    rfl
  rw [withoutBlanks, glyphs_cons_of_visible h, List.filter_cons, if_pos solid]
  rfl

end Text
end HackMachine
