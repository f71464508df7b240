import HackMachine.Proofs.Source
import HackMachine.Proofs.Text.Trim

/-!
# What cleaning leaves of a line

Cleaning cuts a line at its first `//` and trims the rest.  Here is what that means for lines that
differ in layout only, and for lines that are clean already.

* `not_infix_clean`, `clean_clean`: what is left contains no `//` and is left alone by cleaning.
* `clean_remark`: white space, with or without a comment behind it, leaves nothing.
* `clean_surrounded`: white space around a line, and a comment behind that, make no difference.
  White space that ends the line may stay at the end (`clean_surrounded_ending`).

In `clean_surrounded` the white space between the line and the comment must not be empty.  A line
may end in a single slash, and `/` followed by `//` is cut one byte too early.
-/

namespace HackMachine
namespace Source

/-- What a comment starts with. -/
def commentMark : Text := Text.ascii "//"

/-- What may stand at the end of a line besides white space: nothing, or a comment. -/
def IsRemark (t : Text) : Prop := t = [] ∨ ∃ words, t = commentMark ++ words

/-! ## The part before the comment -/

theorem commentMark_prefix_cons {b : UInt8} {t : Text} :
    commentMark <+: b :: t ↔ b = Text.byte '/' ∧ t.head? = some (Text.byte '/') := by
  have mark : commentMark = [Text.byte '/', Text.byte '/'] := rfl
  cases t with
  | nil => simp [mark, List.cons_prefix_cons]
  | cons c t => simp [mark, List.cons_prefix_cons, eq_comm]

theorem exists_eq_beforeComment_append (t : Text) : ∃ rest, t = beforeComment t ++ rest := by
  induction t with
  | nil => exact ⟨[], rfl⟩
  | cons b t ih =>
    rw [beforeComment_cons]
    split
    · exact ⟨b :: t, rfl⟩
    · obtain ⟨rest, whole⟩ := ih
      exact ⟨rest, by rw [List.cons_append, ← whole]⟩

/-- There is no `//` before the comment. -/
theorem not_infix_beforeComment (t : Text) : ¬ commentMark <:+: beforeComment t := by
  induction t with
  | nil => exact fun h => absurd (List.infix_nil.1 h) (by decide)
  | cons b t ih =>
    rw [beforeComment_cons]
    split
    · exact fun h => absurd (List.infix_nil.1 h) (by decide)
    · next noMark =>
      rw [List.infix_cons_iff, commentMark_prefix_cons]
      rintro (⟨slash, next⟩ | later)
      · -- a slash that is left behind this one is the next byte of the text
        obtain ⟨rest, whole⟩ := exists_eq_beforeComment_append t
        refine noMark ⟨slash, ?_⟩
        rw [whole, List.head?_append, next]
        rfl
      · exact ih later

/-- A text without `//` has no comment. -/
theorem beforeComment_of_not_infix {t : Text} (h : ¬ commentMark <:+: t) : beforeComment t = t := by
  induction t with
  | nil => rfl
  | cons b t ih =>
    rw [List.infix_cons_iff, commentMark_prefix_cons, not_or] at h
    rw [beforeComment_cons, if_neg h.1, ih h.2]

/-- If something is added behind a line that does not start with a slash, the comment of the line
stays where it is, or there is none and what is added is looked at by itself. -/
theorem beforeComment_append_right {w : Text} (h : w.head? ≠ some (Text.byte '/')) (t : Text) :
    beforeComment (t ++ w) = beforeComment t ∨
      beforeComment t = t ∧ beforeComment (t ++ w) = t ++ beforeComment w := by
  induction t with
  | nil => exact .inr ⟨rfl, rfl⟩
  | cons b t ih =>
    have sameMark : (b = Text.byte '/' ∧ (t ++ w).head? = some (Text.byte '/')) ↔
        (b = Text.byte '/' ∧ t.head? = some (Text.byte '/')) := by
      cases t with
      | nil => simp [h]
      | cons c t => rfl
    rw [List.cons_append, beforeComment_cons, beforeComment_cons]
    by_cases mark : b = Text.byte '/' ∧ t.head? = some (Text.byte '/')
    · rw [if_pos mark, if_pos (sameMark.2 mark)]
      exact .inl rfl
    · rw [if_neg mark, if_neg (mt sameMark.1 mark)]
      rcases ih with same | ⟨whole, same⟩
      · exact .inl (by rw [same])
      · exact .inr ⟨by rw [whole], by rw [same, List.cons_append]⟩

theorem IsRemark.beforeComment {t : Text} (h : IsRemark t) : beforeComment t = [] := by
  rcases h with rfl | ⟨words, rfl⟩
  · rfl
  · exact (beforeComment_cons ..).trans (if_pos ⟨rfl, rfl⟩)

/-! ## The cleaned line -/

/-- There is no `//` in a cleaned line. -/
theorem not_infix_clean (t : Text) : ¬ commentMark <:+: clean t := by
  intro inside
  exact not_infix_beforeComment t (inside.trans (Text.trim_infix (beforeComment t)))

/-- Cleaning twice is cleaning once. -/
theorem clean_clean (t : Text) : clean (clean t) = clean t := by
  rw [clean, beforeComment_of_not_infix (not_infix_clean t), clean, Text.trim_trim]

/-- Nothing is left of white space and a comment. -/
theorem clean_remark {space remark : Text} (hs : Text.IsWhiteSpace space) (hr : IsRemark remark) :
    clean (space ++ remark) = [] := by
  rw [clean, beforeComment_append_left hs.slash_not_mem, hr.beforeComment, List.append_nil,
    Text.trim_of_isWhiteSpace hs]

/-- White space around a line and a comment behind it make no difference. -/
theorem clean_surrounded {front back remark : Text} (hf : Text.IsWhiteSpace front)
    (hb : Text.IsWhiteSpace back) (apart : back ≠ []) (hr : IsRemark remark) (line : Text) :
    clean (front ++ (line ++ (back ++ remark))) = clean line := by
  have start : (back ++ remark).head? ≠ some (Text.byte '/') := by
    cases back with
    | nil => exact absurd rfl apart
    | cons b back =>
      intro slash
      obtain rfl : b = Text.byte '/' := Option.some.inj slash
      exact hb.slash_not_mem List.mem_cons_self
  have added : beforeComment (back ++ remark) = back := by
    rw [beforeComment_append_left hb.slash_not_mem, hr.beforeComment, List.append_nil]
  rw [clean, beforeComment_append_left hf.slash_not_mem, Text.trim_append_left hf, clean]
  rcases beforeComment_append_right start line with same | ⟨whole, same⟩
  · rw [same]
  · rw [same, added, whole, Text.trim_append_right hb]

/-- Without white space before it, a comment behind a slash takes the slash with it. -/
example : clean (Text.ascii "D/") = Text.ascii "D/" ∧
    clean (Text.ascii "D/" ++ Text.ascii "//?") = Text.ascii "D" := by
  decide

theorem clean_append {space : Text} (h : Text.IsWhiteSpace space) (line : Text) :
    clean (line ++ space) = clean line := by
  by_cases empty : space = []
  · rw [empty, List.append_nil]
  · have same := clean_surrounded .nil h empty (.inl rfl) line
    rwa [List.nil_append, List.append_nil] at same

/-- The same for a line with white space at its end that stays at the end, such as a carriage
return. -/
theorem clean_surrounded_ending {front back remark ending : Text} (hf : Text.IsWhiteSpace front)
    (hb : Text.IsWhiteSpace back) (apart : back ≠ []) (hr : IsRemark remark)
    (he : Text.IsWhiteSpace ending) (line : Text) :
    clean (front ++ (line ++ (back ++ (remark ++ ending)))) = clean (line ++ ending) := by
  rw [clean_append he]
  rcases hr with rfl | ⟨words, rfl⟩
  · have wide : back ++ ending ≠ [] := fun empty => apart (List.append_eq_nil_iff.1 empty).1
    have same := clean_surrounded hf (hb.append he) wide (.inl rfl) line
    rwa [List.append_nil] at same
  · rw [List.append_assoc]
    exact clean_surrounded hf hb apart (.inr ⟨words ++ ending, rfl⟩) line

end Source
end HackMachine
