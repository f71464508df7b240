import HackMachine.Proofs.Text.WhiteSpace
import Mathlib.Data.List.TakeWhile

/-!
# Trimming

`trim` reads a text as glyphs, drops blank ones at both ends and puts the bytes of the others
together again.  What it does can be said of the bytes: a text is what trimming leaves of it between
two stretches of white space (`exists_trim`), and white space that is added at either end makes no
difference (`trim_append_left`, `trim_append_right`).  Trimming twice is trimming once
(`trim_trim`).

The point is that adding bytes at one end of a text could change how the text itself is read.  In
front this cannot happen, since the glyphs of white space are complete.  Behind, it cannot happen as
long as what is added does not start with a continuation byte (`glyphs_append`): a sequence that
breaks off at the end of the text is still broken off there.
-/

namespace HackMachine
namespace Text

/-- White-space characters, one after the other. -/
def IsWhiteSpace (t : Text) : Prop :=
  ∃ cs : List Char, (∀ c ∈ cs, c ∈ whiteSpace) ∧ t = cs.flatMap String.utf8EncodeChar

theorem IsWhiteSpace.nil : IsWhiteSpace [] := ⟨[], nofun, rfl⟩

theorem IsWhiteSpace.append {t u : Text} (ht : IsWhiteSpace t) (hu : IsWhiteSpace u) :
    IsWhiteSpace (t ++ u) := by
  obtain ⟨cs, hcs, rfl⟩ := ht
  obtain ⟨ds, hds, rfl⟩ := hu
  refine ⟨cs ++ ds, ?_, List.flatMap_append.symm⟩
  intro c hc
  rcases List.mem_append.1 hc with hc | hc
  · exact hcs c hc
  · exact hds c hc

theorem isWhiteSpace_encoded {c : Char} (h : c ∈ whiteSpace) :
    IsWhiteSpace (String.utf8EncodeChar c) :=
  ⟨[c], by simpa using h, by simp⟩

/-- No white-space character has a slash among its bytes. -/
theorem IsWhiteSpace.slash_not_mem {t : Text} (h : IsWhiteSpace t) : byte '/' ∉ t := by
  obtain ⟨cs, hcs, rfl⟩ := h
  intro slash
  obtain ⟨c, hc, inside⟩ := List.mem_flatMap.1 slash
  obtain ⟨n, hn, rfl⟩ := List.mem_map.1 (hcs c hc)
  have others := (by decide : ∀ n ∈ whiteSpaceCodes,
    (String.utf8EncodeChar (Char.ofNat n)).all (· != byte '/') = true) n hn
  have apart := List.all_eq_true.1 others _ inside
  simp at apart

/-- White space does not start with a continuation byte. -/
theorem IsWhiteSpace.head_not_isContinuation {t : Text} (h : IsWhiteSpace t) {b : UInt8}
    (first : t.head? = some b) : Glyph.isContinuation b = false := by
  obtain ⟨cs, hcs, rfl⟩ := h
  cases cs with
  | nil => cases first
  | cons c cs =>
    obtain ⟨n, hn, rfl⟩ := List.mem_map.1 (hcs c List.mem_cons_self)
    have start := (by decide : ∀ n ∈ whiteSpaceCodes,
      (String.utf8EncodeChar (Char.ofNat n)).head?.any (!Glyph.isContinuation ·) = true) n hn
    obtain ⟨lead, isFirst, leads⟩ := (Option.any_eq_true ..).1 start
    rw [List.flatMap_cons, List.head?_append, isFirst, Option.some_or, Option.some.injEq] at first
    rw [← first]
    simpa using leads

/-! ## Reading glyph by glyph -/

/-- What holds of the empty text, and of a text if it holds of what stands behind the first glyph,
holds of every text. -/
@[elab_as_elim]
theorem glyphInduction {motive : Text → Prop} (t : Text) (nil : motive [])
    (cons : ∀ lead tail after, (Glyph.first lead (tail ++ after)).bytes = lead :: tail →
      glyphs (lead :: (tail ++ after)) = Glyph.first lead (tail ++ after) :: glyphs after →
      motive after → motive (lead :: (tail ++ after))) : motive t := by
  match t with
  | [] => exact nil
  | lead :: rest =>
    obtain ⟨tail, after, bytes, same, behind, -⟩ := Glyph.exists_bytes_first lead rest
    have shorter : after.length < (lead :: rest).length := by
      rw [same, List.length_cons, List.length_append]
      omega
    have reading := glyphs_cons lead rest
    rw [behind] at reading
    subst same
    exact cons lead tail after bytes reading (glyphInduction after nil cons)
termination_by t.length

/-- The glyphs of a text spell it. -/
theorem ofGlyphs_glyphs (t : Text) : ofGlyphs (glyphs t) = t := by
  induction t using glyphInduction with
  | nil => rfl
  | cons lead tail after bytes reading ih =>
    rw [reading, ofGlyphs, List.flatMap_cons, bytes, ← ofGlyphs, ih]
    rfl

/-- Every glyph of a text is the first glyph of some part of it. -/
theorem exists_first_of_mem_glyphs {t : Text} {g : Glyph} (h : g ∈ glyphs t) :
    ∃ lead rest, g = Glyph.first lead rest := by
  induction t using glyphInduction with
  | nil => cases h
  | cons lead tail after bytes reading ih =>
    rw [reading] at h
    rcases List.mem_cons.1 h with rfl | later
    · exact ⟨lead, tail ++ after, rfl⟩
    · exact ih later

/-- Blank glyphs of a text spell white space. -/
theorem isWhiteSpace_ofGlyphs (t : Text) {gs : List Glyph} (inside : ∀ g ∈ gs, g ∈ glyphs t)
    (blank : ∀ g ∈ gs, g.isBlank = true) : IsWhiteSpace (ofGlyphs gs) := by
  induction gs with
  | nil => exact .nil
  | cons g gs ih =>
    obtain ⟨first, others⟩ := List.forall_mem_cons.1 blank
    obtain ⟨here, there⟩ := List.forall_mem_cons.1 inside
    obtain ⟨lead, rest, rfl⟩ := exists_first_of_mem_glyphs here
    obtain ⟨c, hc, bytes⟩ := Glyph.exists_whiteSpace_of_isBlank first
    rw [ofGlyphs, List.flatMap_cons, bytes, ← ofGlyphs]
    exact (isWhiteSpace_encoded hc).append (ih there others)

/-! ## Texts put together -/

/-- White space in front of a text is read as blank glyphs in front of its glyphs. -/
theorem IsWhiteSpace.exists_glyphs_append {w : Text} (h : IsWhiteSpace w) (t : Text) :
    ∃ gs, (∀ g ∈ gs, g.isBlank = true) ∧ glyphs (w ++ t) = gs ++ glyphs t := by
  obtain ⟨cs, hcs, rfl⟩ := h
  induction cs with
  | nil => exact ⟨[], nofun, rfl⟩
  | cons c cs ih =>
    obtain ⟨hc, others⟩ := List.forall_mem_cons.1 hcs
    obtain ⟨gs, blank, reading⟩ := ih others
    obtain ⟨lead, tail, encoded, bytes, isBlank⟩ :=
      Glyph.first_of_encoded hc (cs.flatMap String.utf8EncodeChar ++ t)
    refine ⟨_ :: gs, List.forall_mem_cons.2 ⟨isBlank, blank⟩, ?_⟩
    rw [List.flatMap_cons, List.append_assoc, encoded, List.cons_append, glyphs_cons, bytes,
      List.length_cons, Nat.add_sub_cancel, List.drop_left, reading, List.cons_append]

theorem Glyph.Tail.length_of_accepts {shape : Tail} {tail : Text}
    (ok : shape.accepts tail = true) : tail.length = shape.more + 1 := by
  obtain ⟨x, others, rfl, -, -, length, -⟩ := Tail.accepts_iff.1 ok
  rw [List.length_cons, length]

/-- A complete tail ends before a byte that does not continue it. -/
theorem Glyph.length_le_of_accepts {w : Text}
    (boundary : ∀ b, w.head? = some b → isContinuation b = false) {lead : UInt8} {shape : Tail}
    (found : tailOf lead = some shape) {rest : Text}
    (ok : shape.accepts ((rest ++ w).take (shape.more + 1)) = true) :
    shape.more + 1 ≤ rest.length := by
  by_contra short
  have outside : rest.length < shape.more + 1 := Nat.not_le.1 short
  have size := Tail.length_of_accepts ok
  cases w with
  | nil =>
    rw [List.append_nil, List.length_take] at size
    omega
  | cons b w =>
    obtain ⟨k, hk⟩ : ∃ k, shape.more + 1 - rest.length = k + 1 :=
      ⟨shape.more - rest.length, by omega⟩
    have inside : b ∈ (rest ++ b :: w).take (shape.more + 1) := by
      rw [List.take_append, hk, List.take_succ_cons]
      exact List.mem_append_right _ List.mem_cons_self
    have continued := isContinuation_of_mem_tail found ok b inside
    rw [boundary b rfl] at continued
    cases continued

/-- A glyph is read in the same way if something follows that does not continue it. -/
theorem Glyph.first_append_of_boundary {w : Text}
    (boundary : ∀ b, w.head? = some b → isContinuation b = false) (lead : UInt8) (rest : Text) :
    first lead (rest ++ w) = first lead rest := by
  by_cases small : lead < 0x80
  · rw [first_of_lt small, first_of_lt small]
  unfold first
  rw [if_neg small, if_neg small]
  cases found : tailOf lead with
  | none => rfl
  | some shape =>
    dsimp only
    by_cases enough : shape.more + 1 ≤ rest.length
    · rw [List.take_append_of_le_length enough]
    · -- neither has a complete tail, so the byte is stray in both
      have incomplete : ¬ shape.accepts (rest.take (shape.more + 1)) = true := by
        intro ok
        have size := Tail.length_of_accepts ok
        rw [List.length_take] at size
        omega
      have incomplete' : ¬ shape.accepts ((rest ++ w).take (shape.more + 1)) = true :=
        fun ok => enough (length_le_of_accepts boundary found ok)
      rw [if_neg incomplete, if_neg incomplete']

/-- Two texts are read one after the other if the second does not start with a continuation byte. -/
theorem glyphs_append {w : Text}
    (boundary : ∀ b, w.head? = some b → Glyph.isContinuation b = false) (t : Text) :
    glyphs (t ++ w) = glyphs t ++ glyphs w := by
  induction t using glyphInduction with
  | nil => rfl
  | cons lead tail after bytes reading ih =>
    have same := Glyph.first_append_of_boundary boundary lead (tail ++ after)
    rw [List.cons_append, glyphs_cons, same, bytes, List.length_cons, Nat.add_sub_cancel,
      List.append_assoc, List.drop_left, ih, reading, List.cons_append]

/-! ## Blanks at the ends -/

/-- Members that are dropped at the end anyway make no difference. -/
theorem dropWhile_reverse_dropWhile_append {α : Type} {p : α → Bool} {ys : List α}
    (h : ∀ y ∈ ys, p y = true) (xs : List α) :
    ((xs ++ ys).dropWhile p).reverse.dropWhile p = (xs.dropWhile p).reverse.dropWhile p := by
  have all : ys.dropWhile p = [] := List.dropWhile_eq_nil_iff.2 h
  have backwards : ∀ y ∈ ys.reverse, p y = true := fun y hy => h y (List.mem_reverse.1 hy)
  rw [List.dropWhile_append]
  split
  · next empty =>
    rw [all, List.isEmpty_iff.1 empty]
  · rw [List.reverse_append, List.dropWhile_append_of_pos backwards]

/-- What is left when members are dropped at both ends stands between those that are dropped. -/
theorem exists_eq_append_dropWhile {α : Type} (p : α → Bool) (xs : List α) :
    ∃ first last, (∀ x ∈ first, p x = true) ∧ (∀ x ∈ last, p x = true) ∧
      xs = first ++ (((xs.dropWhile p).reverse.dropWhile p).reverse ++ last) := by
  refine ⟨xs.takeWhile p, ((xs.dropWhile p).reverse.takeWhile p).reverse,
    fun x hx => List.mem_takeWhile_imp hx,
    fun x hx => List.mem_takeWhile_imp (List.mem_reverse.1 hx), ?_⟩
  rw [← List.reverse_append, List.takeWhile_append_dropWhile, List.reverse_reverse,
    List.takeWhile_append_dropWhile]

/-- White space in front of a text is trimmed off. -/
theorem trim_append_left {w : Text} (h : IsWhiteSpace w) (t : Text) : trim (w ++ t) = trim t := by
  obtain ⟨gs, blank, reading⟩ := h.exists_glyphs_append t
  rw [trim, reading, List.dropWhile_append_of_pos blank, ← trim]

/-- White space behind a text is trimmed off. -/
theorem trim_append_right {w : Text} (h : IsWhiteSpace w) (t : Text) : trim (t ++ w) = trim t := by
  obtain ⟨gs, blank, reading⟩ := h.exists_glyphs_append []
  rw [List.append_nil, glyphs_nil, List.append_nil] at reading
  rw [trim, glyphs_append (fun b => h.head_not_isContinuation), reading,
    dropWhile_reverse_dropWhile_append blank, ← trim]

theorem trim_of_isWhiteSpace {w : Text} (h : IsWhiteSpace w) : trim w = [] := by
  have alone := trim_append_left h []
  rwa [List.append_nil, trim_nil] at alone

/-- A text is what trimming leaves of it, with white space on both sides. -/
theorem exists_trim (t : Text) :
    ∃ front back, IsWhiteSpace front ∧ IsWhiteSpace back ∧ t = front ++ (trim t ++ back) := by
  obtain ⟨first, last, blankFirst, blankLast, cut⟩ :=
    exists_eq_append_dropWhile Glyph.isBlank (glyphs t)
  refine ⟨ofGlyphs first, ofGlyphs last, ?_, ?_, ?_⟩
  · refine isWhiteSpace_ofGlyphs t (fun g hg => ?_) blankFirst
    rw [cut]
    exact List.mem_append_left _ hg
  · refine isWhiteSpace_ofGlyphs t (fun g hg => ?_) blankLast
    rw [cut]
    exact List.mem_append_right _ (List.mem_append_right _ hg)
  · calc t = ofGlyphs (glyphs t) := (ofGlyphs_glyphs t).symm
      _ = ofGlyphs first ++ (trim t ++ ofGlyphs last) := by
        rw [cut]
        simp only [ofGlyphs, List.flatMap_append, trim]

/-- Trimming twice is trimming once. -/
theorem trim_trim (t : Text) : trim (trim t) = trim t := by
  obtain ⟨front, back, hfront, hback, whole⟩ := exists_trim t
  calc trim (trim t) = trim (trim t ++ back) := (trim_append_right hback _).symm
    _ = trim (front ++ (trim t ++ back)) := (trim_append_left hfront _).symm
    _ = trim t := by rw [← whole]

theorem trim_infix (t : Text) : trim t <:+: t := by
  obtain ⟨front, back, -, -, whole⟩ := exists_trim t
  refine ⟨front, back, ?_⟩
  rw [List.append_assoc, ← whole]

end Text
end HackMachine
