import HackMachine.Proofs.Text.Plain
import HackMachine.Source
import Mathlib.Data.List.Basic

/-!
# Reading source text

`IsLine` says what the lines of a text are without splitting it: line `n` stands behind `n - 1` line
feeds, contains none, and is ended by one or by the end of the text.  The lines that the reader goes
through are these (`getElem?_physicalLines_iff`).  So a text that can be read yields the cleaned
lines that are not empty, each with the number of its line in the text (`mem_read_iff`), and in
order (`pairwise_read`).

A text without a line that is too long is always read (`read_of_short`).

A line is *plain* if cleaning leaves it as it is, it is not empty, and it is within the limit.  A
text of plain lines, each ended by a line feed, is read as these lines, numbered from one on
(`read_of_plain`, `read_flatMap_of_plain`).
-/

namespace HackMachine
namespace Source

/-! ## Lines -/

/-- Line `n` of a text, counted from one.  What stands behind the last line feed is a line only if
it is not empty. -/
def IsLine (t : Text) (n : Nat) (line : Text) : Prop :=
  ∃ front rest, t = front ++ (line ++ rest) ∧ n = front.count Text.newline + 1 ∧
    (front = [] ∨ ∃ before, front = before ++ [Text.newline]) ∧ Text.newline ∉ line ∧
    (rest = [] ∧ line ≠ [] ∨ ∃ after, rest = Text.newline :: after)

section Lines

variable {t line first more : Text} {n : Nat}

theorem IsLine.pos (h : IsLine t n line) : 0 < n := by
  obtain ⟨_, _, -, rfl, -⟩ := h
  omega

/-- A text without a line feed is one line, or none if it is empty. -/
theorem isLine_of_not_mem (h : Text.newline ∉ t) : IsLine t n line ↔ n = 1 ∧ line = t ∧ t ≠ [] := by
  constructor
  · rintro ⟨front, rest, rfl, rfl, atStart, -, atEnd⟩
    simp only [List.mem_append, not_or] at h
    obtain rfl : front = [] := by
      rcases atStart with rfl | ⟨before, rfl⟩
      · rfl
      · exact absurd (List.mem_append_right before (List.mem_singleton_self _)) h.1
    rcases atEnd with ⟨rfl, solid⟩ | ⟨after, rfl⟩
    · simpa using solid
    · exact absurd List.mem_cons_self h.2.2
  · rintro ⟨rfl, rfl, solid⟩
    exact ⟨[], [], by simp, by simp, .inl rfl, h, .inl ⟨rfl, solid⟩⟩

/-- Two texts that agree up to their first line feed agree in both parts. -/
theorem append_newline_inj {first' more' : Text} (h : Text.newline ∉ first)
    (h' : Text.newline ∉ first')
    (same : first ++ Text.newline :: more = first' ++ Text.newline :: more') :
    first = first' ∧ more = more' := by
  have cuts := congrArg (Text.cut Text.newline) same
  rw [Text.cut_append h, Text.cut_append h'] at cuts
  simpa using cuts

/-- The lines of a text with a line feed: the part before the first one, and the lines behind it. -/
theorem isLine_append (h : Text.newline ∉ first) :
    IsLine (first ++ Text.newline :: more) n line ↔
      n = 1 ∧ line = first ∨ ∃ m, n = m + 1 ∧ IsLine more m line := by
  constructor
  · rintro ⟨front, rest, same, rfl, rfl | ⟨before, rfl⟩, inside, atEnd⟩
    · -- nothing stands before the line, so it ends at the first line feed
      left
      rcases atEnd with ⟨rfl, -⟩ | ⟨after, rfl⟩
      · rw [List.nil_append, List.append_nil] at same
        exact absurd (same ▸ List.mem_append_right first List.mem_cons_self) inside
      · exact ⟨by simp, (append_newline_inj h inside same).1.symm⟩
    · right
      rw [List.append_assoc, List.singleton_append] at same
      rcases Text.cut_cases Text.newline before with ⟨none, -⟩ | ⟨first', before', none, rfl, -⟩
      · obtain ⟨rfl, rfl⟩ := append_newline_inj h none same
        refine ⟨1, ?_, [], rest, rfl, rfl, .inl rfl, inside, atEnd⟩
        rw [List.count_append, List.count_eq_zero.2 none]
        rfl
      · rw [List.append_assoc, List.cons_append] at same
        obtain ⟨rfl, rfl⟩ := append_newline_inj h none same
        refine ⟨_, ?_, before' ++ [Text.newline], rest, ?_, rfl, .inr ⟨before', rfl⟩, inside, atEnd⟩
        · simp [List.count_append, List.count_eq_zero.2 none]
        · simp
  · rintro (⟨rfl, rfl⟩ | ⟨m, rfl, front, rest, rfl, rfl, atStart, inside, atEnd⟩)
    · exact ⟨[], Text.newline :: more, rfl, rfl, .inl rfl, h, .inr ⟨more, rfl⟩⟩
    · refine ⟨first ++ Text.newline :: front, rest, by simp, ?_, .inr ?_, inside, atEnd⟩
      · simp [List.count_append, List.count_eq_zero.2 h]
      · rcases atStart with rfl | ⟨before, rfl⟩
        · exact ⟨first, rfl⟩
        · exact ⟨first ++ Text.newline :: before, by simp⟩

theorem splitOn_ne_nil (sep : UInt8) (t : Text) : Text.splitOn sep t ≠ [] :=
  List.cons_ne_nil _ _

theorem physicalLines_of_not_mem (h : Text.newline ∉ t) :
    physicalLines t = if t = [] then [] else [t] := by
  rw [physicalLines, Text.splitOn_of_not_mem h]
  by_cases empty : t = []
  · simp [empty]
  · simp [empty]

theorem physicalLines_append (h : Text.newline ∉ first) (more : Text) :
    physicalLines (first ++ Text.newline :: more) = first :: physicalLines more := by
  have parts := splitOn_ne_nil Text.newline more
  simp only [physicalLines, Text.splitOn_append h, List.getLast?_cons_of_ne_nil parts,
    List.dropLast_cons_of_ne_nil parts]
  split <;> rfl

/-- The lines that are read one after the other are the lines of the text. -/
theorem getElem?_physicalLines_iff {i : Nat} :
    (physicalLines t)[i]? = some line ↔ IsLine t (i + 1) line := by
  induction i generalizing t with
  | zero =>
    rcases Text.cut_cases Text.newline t with ⟨none, -⟩ | ⟨first, more, none, rfl, -⟩
    · rw [physicalLines_of_not_mem none, isLine_of_not_mem none]
      by_cases empty : t = []
      · simp [empty]
      · simp [empty, eq_comm]
    · have later : ¬ IsLine more 0 line := fun isLine => Nat.lt_irrefl 0 isLine.pos
      rw [physicalLines_append none, isLine_append none, List.getElem?_cons_zero]
      simp [later, eq_comm]
  | succ i ih =>
    rcases Text.cut_cases Text.newline t with ⟨none, -⟩ | ⟨first, more, none, rfl, -⟩
    · rw [physicalLines_of_not_mem none, isLine_of_not_mem none]
      by_cases empty : t = []
      · simp [empty]
      · simp [empty]
    · rw [physicalLines_append none, isLine_append none, List.getElem?_cons_succ, ih]
      simp

/-! ## What is read -/

/-- What becomes of a line with its number: it is cleaned, and dropped if nothing is left. -/
def sourceLine? (line : Text × Nat) : Option SourceLine :=
  if (clean line.1).isEmpty then none else some ⟨line.2, clean line.1⟩

theorem sourceLine?_eq_some_iff {raw : Text} {l : SourceLine} :
    sourceLine? (raw, n) = some l ↔ l = ⟨n, clean raw⟩ ∧ clean raw ≠ [] := by
  unfold sourceLine?
  cases h : clean raw with
  | nil => simp
  | cons b rest => simp [eq_comm]

theorem eq_filterMap_of_read {lines : List SourceLine} (h : read t = .ok lines) :
    lines = ((physicalLines t).zipIdx 1).filterMap sourceLine? := by
  simp only [read] at h
  split at h
  · cases h
  · exact (Except.ok.inj h).symm

/-- A text that can be read yields its cleaned lines that are not empty, with their numbers. -/
theorem mem_read_iff {lines : List SourceLine} (h : read t = .ok lines) {l : SourceLine} :
    l ∈ lines ↔ ∃ (n : Nat) (raw : Text), IsLine t n raw ∧ l = ⟨n, clean raw⟩ ∧ clean raw ≠ [] := by
  rw [eq_filterMap_of_read h, List.mem_filterMap]
  constructor
  · rintro ⟨⟨raw, n⟩, hmem, kept⟩
    obtain ⟨one, at_n⟩ := List.mk_mem_zipIdx_iff_le_and_getElem?_sub.1 hmem
    have isLine := getElem?_physicalLines_iff.1 at_n
    rw [Nat.sub_add_cancel one] at isLine
    exact ⟨n, raw, isLine, sourceLine?_eq_some_iff.1 kept⟩
  · rintro ⟨n, raw, isLine, kept⟩
    have one : 1 ≤ n := isLine.pos
    refine ⟨(raw, n), List.mk_mem_zipIdx_iff_le_and_getElem?_sub.2 ⟨one, ?_⟩,
      sourceLine?_eq_some_iff.2 kept⟩
    rw [getElem?_physicalLines_iff, Nat.sub_add_cancel one]
    exact isLine

/-- Lines are read in order. -/
theorem pairwise_read {lines : List SourceLine} (h : read t = .ok lines) :
    lines.Pairwise fun a b => a.number < b.number := by
  rw [eq_filterMap_of_read h, List.pairwise_filterMap]
  have numbers : ((physicalLines t).zipIdx 1).Pairwise fun a b => a.2 < b.2 := by
    rw [← List.pairwise_map, List.zipIdx_map_snd]
    exact List.pairwise_lt_range'
  refine numbers.imp ?_
  rintro ⟨raw, m⟩ ⟨raw', n⟩ lt l hl l' hl'
  rw [(sourceLine?_eq_some_iff.1 hl).1, (sourceLine?_eq_some_iff.1 hl').1]
  exact Int.ofNat_lt.2 lt

/-! ## Texts with short lines only -/

/-- What is left of lines that are numbered from `n` on. -/
def keptFrom (n : Nat) (lines : List Text) : List SourceLine :=
  (lines.zipIdx n).filterMap sourceLine?

theorem keptFrom_cons (n : Nat) (line : Text) (lines : List Text) :
    keptFrom n (line :: lines) = (sourceLine? (line, n)).toList ++ keptFrom (n + 1) lines := by
  rw [keptFrom, List.zipIdx_cons, List.filterMap_cons]
  cases sourceLine? (line, n) <;> rfl

theorem keptFrom_append (n : Nat) (lines more : List Text) :
    keptFrom n (lines ++ more) = keptFrom n lines ++ keptFrom (n + lines.length) more := by
  rw [keptFrom, List.zipIdx_append, List.filterMap_append]
  rfl

/-- The parts between the line feeds are the lines, and perhaps an empty part behind the last. -/
theorem splitOn_newline_cases (t : Text) :
    Text.splitOn Text.newline t = physicalLines t ∨
      Text.splitOn Text.newline t = physicalLines t ++ [[]] := by
  by_cases last : (Text.splitOn Text.newline t).getLast? = some []
  · right
    obtain ⟨front, whole⟩ := List.getLast?_eq_some_iff.1 last
    have lines : physicalLines t = (Text.splitOn Text.newline t).dropLast := if_pos last
    rw [lines, whole, List.dropLast_concat]
  · exact .inl (if_neg last).symm

/-- The empty part is not a line, but it would not be kept either. -/
theorem keptFrom_physicalLines (n : Nat) (t : Text) :
    keptFrom n (physicalLines t) = keptFrom n (Text.splitOn Text.newline t) := by
  rcases splitOn_newline_cases t with same | same
  · rw [same]
  · rw [same, keptFrom_append]
    exact (List.append_nil _).symm

/-- A text is read if no line reaches the limit. -/
theorem read_of_short (h : ∀ line ∈ Text.splitOn Text.newline t, line.length < lineLimit) :
    read t = .ok (keptFrom 1 (Text.splitOn Text.newline t)) := by
  have noneLong : ((physicalLines t).zipIdx 1).find?
      (fun line => lineLimit ≤ line.1.length) = none := by
    rw [List.find?_eq_none]
    intro line hline
    have physical := List.fst_mem_of_mem_zipIdx hline
    have part : line.1 ∈ Text.splitOn Text.newline t := by
      rcases splitOn_newline_cases t with same | same
      · rwa [same]
      · rw [same]
        exact List.mem_append_left _ physical
    simpa using h line.1 part
  rw [← keptFrom_physicalLines, read, noneLong]
  rfl

end Lines

/-- Bytes other than slashes stand before every comment that follows. -/
theorem beforeComment_append_left {w : Text} (h : Text.byte '/' ∉ w) (t : Text) :
    beforeComment (w ++ t) = w ++ beforeComment t := by
  induction w with
  | nil => rfl
  | cons b w ih =>
    rw [List.mem_cons, not_or] at h
    have noMark : ¬ (b = Text.byte '/' ∧ (w ++ t).head? = some (Text.byte '/')) := fun both =>
      h.1 both.1.symm
    rw [List.cons_append, beforeComment_cons, if_neg noMark, ih h.2, List.cons_append]

theorem beforeComment_of_not_mem {t : Text} (h : Text.byte '/' ∉ t) : beforeComment t = t := by
  have whole := beforeComment_append_left h []
  rwa [beforeComment_nil, List.append_nil] at whole

/-- Cleaning leaves a text alone that has neither blanks nor a slash. -/
theorem clean_of_visible {t : Text} (visible : ∀ b ∈ t, Text.isVisible b)
    (noSlash : Text.byte '/' ∉ t) : clean t = t := by
  rw [clean, beforeComment_of_not_mem noSlash, Text.trim_of_visible visible]

/-- A line that is read as it stands. -/
structure IsPlain (t : Text) : Prop where
  clean : clean t = t
  ne_nil : t ≠ []
  noNewline : Text.newline ∉ t
  short : t.length < lineLimit

/-- Plain lines are kept as they are. -/
theorem keptFrom_of_plain {ts : List Text} (h : ∀ t ∈ ts, IsPlain t) (n : Nat) :
    keptFrom n ts = (ts.zipIdx n).map fun line => ⟨line.2, line.1⟩ := by
  rw [keptFrom, ← List.filterMap_eq_map]
  apply List.filterMap_congr
  rintro ⟨t, i⟩ hline
  have plain := h t (List.fst_mem_of_mem_zipIdx hline)
  refine sourceLine?_eq_some_iff.2 ⟨?_, ?_⟩
  · rw [plain.clean]
  · rw [plain.clean]
    exact plain.ne_nil

/-- Plain lines are read as they are, numbered from one on. -/
theorem read_of_plain {ts : List Text} (h : ∀ t ∈ ts, IsPlain t) :
    read (ts.flatMap (· ++ [Text.newline])) =
      .ok ((ts.zipIdx 1).map fun line => ⟨line.2, line.1⟩) := by
  have parts := Text.splitOn_flatMap fun t ht => (h t ht).noNewline
  have short : ∀ line ∈ Text.splitOn Text.newline (ts.flatMap (· ++ [Text.newline])),
      line.length < lineLimit := by
    rw [parts]
    intro line hline
    rcases List.mem_append.1 hline with hline | hline
    · exact (h line hline).short
    · rw [List.mem_singleton.1 hline]
      decide
  rw [read_of_short short, parts, keptFrom_append, keptFrom_of_plain h]
  exact congrArg Except.ok (List.append_nil _)

/-- A text that is one plain line is read as this line, also without a line feed behind it. -/
theorem read_of_plain_line {t : Text} (h : IsPlain t) : read t = .ok [⟨1, t⟩] := by
  have alone := Text.splitOn_of_not_mem h.noNewline
  have plain : ∀ line ∈ [t], IsPlain line := by simpa using h
  rw [read_of_short (by rw [alone]; exact fun line hline => (plain line hline).short), alone,
    keptFrom_of_plain plain]
  rfl

/-- The same for things that are written as plain lines. -/
theorem read_flatMap_of_plain {α : Type} {f : α → Text} {xs : List α}
    (h : ∀ x ∈ xs, IsPlain (f x)) :
    read (xs.flatMap fun x => f x ++ [Text.newline]) =
      .ok ((xs.zipIdx 1).map fun entry => ⟨entry.2, f entry.1⟩) := by
  have plain : ∀ t ∈ xs.map f, IsPlain t := by
    intro t ht
    obtain ⟨x, hx, rfl⟩ := List.mem_map.1 ht
    exact h x hx
  have lines := read_of_plain plain
  rw [List.flatMap_map, List.zipIdx_map, List.map_map] at lines
  exact lines

end Source
end HackMachine
