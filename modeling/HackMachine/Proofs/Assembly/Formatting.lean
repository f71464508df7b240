import HackMachine.Proofs.Assembly.Correctness
import HackMachine.Proofs.Source.Concatenation

/-!
# Formatting does not matter

Blank lines and comment lines may be inserted anywhere, lines may be indented, and white space and
comments may be added behind them (`Source.Edit`).  The program stays the same: it has the same
words and symbols, and only the numbers of the lines change, in the source map and in what is
reported about a line at fault (`formatting_does_not_matter`).

There are two parts to this.

* The text: what is read from the edited lines is what was read before, under other numbers
  (`Source.Edits.keptFrom`).  Here it is used that cleaning undoes an edit within a line.
* The numbers: both passes carry them along and never look at them.  So assembling renumbered lines
  gives the renumbered outcome, whatever the new numbers are (`assembleLines_renumber`).
-/

namespace HackMachine

/-! ## Line numbers are carried along -/

section Renumbering

variable (f : Int → Int)

def Emitted.renumber (c : Emitted) : Emitted := { c with line := f c.line }

def Emission.renumber (e : Emission) : Emission := { e with code := e.code.map (·.renumber f) }

def Program.renumber (p : Program) : Program := { p with code := p.code.map (·.renumber f) }

def LineFault.renumber (fault : LineFault) : LineFault :=
  { fault with line := fault.line.renumber f }

theorem Emission.renumber_push (e : Emission) (c : Emitted) :
    renumber f { e with code := e.code.push c } =
      { e.renumber f with code := (e.renumber f).code.push (c.renumber f) } := by
  simp only [renumber, Array.map_push]

/-- The first pass does not look at the number of a line, except to report it. -/
theorem Layout.addLine_renumber (layout : Layout) (line : SourceLine) :
    layout.addLine (line.renumber f) =
      Prod.map id (Option.map (LineFault.renumber f)) (layout.addLine line) := by
  have text : (line.renumber f).text = line.text := rfl
  unfold addLine
  rw [text]
  rcases Statement.parse line.text with fault | name | op
  · rfl
  · dsimp only
    cases layout.table.define name ⟨layout.count, .label⟩ <;> rfl
  · rfl

theorem Emission.encode_renumber (e : Emission) (op : Operation) :
    (e.renumber f).encode op = Prod.map (renumber f) id (e.encode op) := by
  rw [(e.renumber f).encode_eq op, e.encode_eq op]
  rfl

/-- The second pass copies the number of a line and does nothing else with it. -/
theorem Emission.addLine_renumber (e : Emission) (line : SourceLine) :
    (e.renumber f).addLine (line.renumber f) =
      Prod.map (renumber f) (Option.map (LineFault.renumber f)) (e.addLine line) := by
  have text : (line.renumber f).text = line.text := rfl
  unfold addLine
  rw [text]
  rcases Statement.parse line.text with fault | name | op
  · rfl
  · rfl
  · dsimp only
    rw [add, add, encode_renumber]
    rcases e.encode op with ⟨next, fault | word⟩
    · rfl
    · exact congrArg (·, none) (renumber_push f next ⟨word, line.number⟩).symm

/-- The first pass over renumbered lines. -/
theorem Layout.addLines_renumber (lines : List SourceLine) :
    start.addLines (lines.map (·.renumber f)) =
      Prod.map id (Option.map (LineFault.renumber f)) (start.addLines lines) := by
  rw [addLines_eq_scan, addLines_eq_scan]
  exact scan_map (addLine_renumber f) start lines

/-- The second pass over renumbered lines.  It starts without a word, so there is nothing to renumber
in its start. -/
theorem Emission.scan_renumber (layout : Layout) (lines : List SourceLine) :
    scan addLine (start layout) (lines.map (·.renumber f)) =
      Prod.map (renumber f) (Option.map (LineFault.renumber f))
        (scan addLine (start layout) lines) := by
  have same : (start layout).renumber f = start layout := by
    simp only [start, renumber, Array.map_empty]
  rw [← scan_map (addLine_renumber f), same]

/-- The outcome for renumbered lines is the renumbered outcome. -/
theorem assembleLines_renumber (lines : List SourceLine) :
    assembleLines (lines.map (·.renumber f)) =
      ((assembleLines lines).map (·.renumber f)).mapError (·.renumber f) := by
  have firsts := Layout.addLines_renumber f lines
  rcases first : Layout.start.addLines lines with ⟨layout, _ | fault⟩
  · rw [first] at firsts
    have seconds := Emission.scan_renumber f layout lines
    rcases second : scan Emission.addLine (Emission.start layout) lines with ⟨e, _ | fault⟩
    · rw [second] at seconds
      rw [assembleLines_of_passes firsts seconds, assembleLines_of_passes first second]
      rfl
    · rw [second] at seconds
      rw [assembleLines_of_second_fault firsts seconds, assembleLines_of_second_fault first second]
      rfl
  · rw [first] at firsts
    rw [assembleLines_of_first_fault firsts, assembleLines_of_first_fault first]
    rfl

namespace Program

theorem words_renumber (p : Program) : (p.renumber f).words = p.words := by
  simp [words, renumber, Emitted.renumber]

theorem sourceMap_renumber (p : Program) :
    (p.renumber f).sourceMap = p.sourceMap.map fun entry => (entry.1, f entry.2) := by
  simp [sourceMap, renumber, Emitted.renumber, List.zipIdx_map]

end Program
end Renumbering

/-! ## Changes of formatting -/

namespace Source

/-- The number that a line has once another is inserted behind line `k`. -/
def movedDown (k : Nat) (n : Int) : Int := if n ≤ k then n else n + 1

/-- A change that affects neither the statements of a text nor their order, and what becomes of the
numbers of the lines.

* A line is inserted that holds white space, perhaps with a comment.
* White space is put around a line, perhaps with a comment at the end.  There has to be some white
  space behind the line.  What ends the line, such as a carriage return, may stay at the end. -/
inductive Edit : (Int → Int) → List Text → List Text → Prop where
  | insert (above below : List Text) {space remark : Text} (hs : Text.IsWhiteSpace space)
      (hr : IsRemark remark) :
      Edit (movedDown above.length) (above ++ below) (above ++ (space ++ remark) :: below)
  | surround (above below : List Text) (line : Text) {front back remark ending : Text}
      (hf : Text.IsWhiteSpace front) (hb : Text.IsWhiteSpace back) (apart : back ≠ [])
      (hr : IsRemark remark) (he : Text.IsWhiteSpace ending) :
      Edit id (above ++ (line ++ ending) :: below)
        (above ++ (front ++ (line ++ (back ++ (remark ++ ending)))) :: below)

/-- Changes one after the other. -/
inductive Edits : (Int → Int) → List Text → List Text → Prop where
  | refl (lines : List Text) : Edits id lines lines
  | step {f g : Int → Int} {lines mid new : List Text} (before : Edits f lines mid)
      (last : Edit g mid new) : Edits (g ∘ f) lines new

/-! ### What is kept of the lines -/

theorem keptFrom_add (n c : Nat) (lines : List Text) :
    keptFrom (n + c) lines = (keptFrom n lines).map (·.renumber (· + c)) := by
  induction lines generalizing n with
  | nil => rfl
  | cons line lines ih =>
    have next : n + c + 1 = n + 1 + c := by omega
    rw [keptFrom_cons, keptFrom_cons, next, ih, sourceLine?_add, List.map_append]
    cases sourceLine? (line, n) <;> rfl

/-- What is kept has the number of one of the lines. -/
theorem number_of_mem_keptFrom {n : Nat} {lines : List Text} {kept : SourceLine}
    (h : kept ∈ keptFrom n lines) : n ≤ kept.number ∧ kept.number < n + lines.length := by
  obtain ⟨⟨line, k⟩, hline, same⟩ := List.mem_filterMap.1 h
  have first := List.le_snd_of_mem_zipIdx hline
  have last := List.snd_lt_add_of_mem_zipIdx hline
  rw [(sourceLine?_eq_some_iff.1 same).1]
  show (n : Int) ≤ k ∧ (k : Int) < n + lines.length
  omega

theorem sourceLine?_congr {line line' : Text} (h : clean line = clean line') (n : Nat) :
    sourceLine? (line, n) = sourceLine? (line', n) := by
  rw [sourceLine?, sourceLine?, h]

/-- Above an inserted line nothing changes. -/
theorem keptFrom_above (lines : List Text) :
    (keptFrom 1 lines).map (·.renumber (movedDown lines.length)) = keptFrom 1 lines := by
  refine (List.map_congr_left fun kept hkept => ?_).trans (List.map_id _)
  have high := (number_of_mem_keptFrom hkept).2
  have same : movedDown lines.length kept.number = kept.number := if_pos (by omega)
  rw [SourceLine.renumber, same, id]

/-- Below an inserted line every line has the next number. -/
theorem keptFrom_below (k : Nat) (lines : List Text) :
    (keptFrom (1 + k) lines).map (·.renumber (movedDown k)) = keptFrom (1 + k + 1) lines := by
  rw [keptFrom_add (1 + k) 1]
  refine List.map_congr_left fun kept hkept => ?_
  have low := (number_of_mem_keptFrom hkept).1
  have moved : movedDown k kept.number = kept.number + (1 : Nat) := if_neg (by omega)
  rw [SourceLine.renumber, SourceLine.renumber, moved]

/-- One change leaves what is kept as it was, up to the numbers. -/
theorem Edit.keptFrom {f : Int → Int} {lines new : List Text} (h : Edit f lines new) :
    keptFrom 1 new = (keptFrom 1 lines).map (·.renumber f) := by
  cases h with
  | insert above below hs hr =>
    have nothing : sourceLine? (_, 1 + above.length) = none :=
      if_pos (by rw [clean_remark hs hr]; rfl)
    rw [keptFrom_append, keptFrom_append, keptFrom_cons, nothing, List.map_append,
      keptFrom_above, keptFrom_below]
    rfl
  | surround above below line hf hb apart hr he =>
    have same := clean_surrounded_ending hf hb apart hr he line
    rw [keptFrom_append, keptFrom_append, keptFrom_cons, keptFrom_cons, sourceLine?_congr same]
    exact (List.map_id _).symm

theorem Edits.keptFrom {f : Int → Int} {lines new : List Text} (h : Edits f lines new) :
    keptFrom 1 new = (keptFrom 1 lines).map (·.renumber f) := by
  induction h with
  | refl lines => exact (List.map_id _).symm
  | step before last ih =>
    rw [last.keptFrom, ih, List.map_map]
    rfl

/-! ### Lines do not become shorter -/

theorem Edit.exists_longer {f : Int → Int} {lines new : List Text} (h : Edit f lines new) :
    ∀ line ∈ lines, ∃ line' ∈ new, line.length ≤ line'.length := by
  intro line hline
  cases h with
  | insert above below hs hr =>
    refine ⟨line, ?_, Nat.le_refl _⟩
    rw [List.mem_append] at hline ⊢
    exact hline.imp_right (List.mem_cons_of_mem _)
  | surround above below inner hf hb apart hr he =>
    rw [List.mem_append, List.mem_cons] at hline
    rcases hline with hline | rfl | hline
    · exact ⟨line, List.mem_append_left _ hline, Nat.le_refl _⟩
    · refine ⟨_, List.mem_append_right _ List.mem_cons_self, ?_⟩
      simp only [List.length_append]
      omega
    · exact ⟨line, List.mem_append_right _ (List.mem_cons_of_mem _ hline), Nat.le_refl _⟩

theorem Edits.exists_longer {f : Int → Int} {lines new : List Text} (h : Edits f lines new) :
    ∀ line ∈ lines, ∃ line' ∈ new, line.length ≤ line'.length := by
  induction h with
  | refl lines => exact fun line hline => ⟨line, hline, Nat.le_refl _⟩
  | step before last ih =>
    intro line hline
    obtain ⟨line₁, hline₁, le₁⟩ := ih line hline
    obtain ⟨line₂, hline₂, le₂⟩ := last.exists_longer line₁ hline₁
    exact ⟨line₂, hline₂, Nat.le_trans le₁ le₂⟩

/-- Reading the edited lines gives the same as before, up to the numbers. -/
theorem Edits.read {f : Int → Int} {t : Text} {new : List Text}
    (h : Edits f (Text.splitOn Text.newline t) new)
    (fits : ∀ line ∈ new, Text.newline ∉ line ∧ line.length < lineLimit) :
    read t = .ok (Source.keptFrom 1 (Text.splitOn Text.newline t)) ∧
      read (Text.joinWith Text.newline new) =
        .ok ((Source.keptFrom 1 (Text.splitOn Text.newline t)).map (·.renumber f)) := by
  have solid : new ≠ [] := by
    obtain ⟨line, hline⟩ := List.exists_mem_of_ne_nil _ (splitOn_ne_nil Text.newline t)
    obtain ⟨line', hline', -⟩ := h.exists_longer line hline
    exact List.ne_nil_of_mem hline'
  have parts := Text.splitOn_joinWith solid fun line hline => (fits line hline).1
  refine ⟨read_of_short fun line hline => ?_, ?_⟩
  · obtain ⟨line', hline', le⟩ := h.exists_longer line hline
    exact Nat.lt_of_le_of_lt le (fits line' hline').2
  · rw [← h.keptFrom, read_of_short, parts]
    rw [parts]
    exact fun line hline => (fits line hline).2

end Source

/-- Let a text be changed by inserting lines that are blank or hold only a comment, and by putting
white space around lines, with or without a comment behind it.  No line may become too long.  Then
the outcome of assembling it stays the same.

* If the text assembles, so does the new text, to the same words with the same symbols.  The source
  map has the new numbers of the lines and is the same otherwise.
* If a line of the text is at fault, the same line is at fault in the new text, for the same reason,
  and is reported under its new number.

Neither text has a line that is too long, so there is no third case. -/
theorem formatting_does_not_matter {t : Text} {shift : Int → Int} {new : List Text}
    (edits : Source.Edits shift (Text.splitOn Text.newline t) new)
    (fits : ∀ line ∈ new, Text.newline ∉ line ∧ line.length < Source.lineLimit) :
    match assembleText t with
    | .ok p => ∃ p', assembleText (Text.joinWith Text.newline new) = .ok p' ∧
        p'.words = p.words ∧ p'.symbols = p.symbols ∧
        p'.sourceMap = p.sourceMap.map fun entry => (entry.1, shift entry.2)
    | .error (.line fault) => assembleText (Text.joinWith Text.newline new) =
        .error (.line ⟨⟨shift fault.line.number, fault.line.text⟩, fault.fault⟩)
    | .error (.source _) => False := by
  obtain ⟨old, renumbered⟩ := edits.read fits
  simp only [assembleText, old, renumbered, assembleLines_renumber]
  cases assembleLines (Source.keptFrom 1 (Text.splitOn Text.newline t)) with
  | error fault => rfl
  | ok p => exact ⟨p.renumber shift, rfl, p.words_renumber shift, rfl, p.sourceMap_renumber shift⟩

/-- A program that waits, with carriage returns at the ends of its lines. -/
def waitLoop : Text := Text.ascii "(END)\r\n@END\r\n0;JMP"

/-- The same with two comments. -/
def commentedWaitLoop : List Text :=
  [Text.ascii "  // wait", Text.ascii "(END)\r", Text.ascii "\t@END //again\r",
    Text.ascii "0;JMP"]

/-- A line at fault, which ends in a slash. -/
def straySlash : Text := Text.ascii "@1\nD=X/"

/-- The same with an empty line and a comment. -/
def commentedSlash : List Text := [Text.ascii "@1", [], Text.ascii "D=X/ //?"]

theorem formatting_does_not_matter_comments :
    (∃ p, assembleText (Text.joinWith Text.newline commentedWaitLoop) = .ok p ∧
      p.words = #[0x0000, 0xEA87] ∧ p.sourceMap = [(0, 3), (1, 4)]) ∧
    assembleText (Text.joinWith Text.newline commentedSlash) =
      .error (.line ⟨⟨3, Text.ascii "D=X/"⟩, .malformed (.computation (Text.ascii "X/"))⟩) := by
  have blank : Text.IsWhiteSpace (Text.ascii " ") :=
    Text.isWhiteSpace_encoded (by decide : ' ' ∈ Text.whiteSpace)
  have tab : Text.IsWhiteSpace (Text.ascii "\t") :=
    Text.isWhiteSpace_encoded (by decide : '\t' ∈ Text.whiteSpace)
  have ending : Text.IsWhiteSpace (Text.ascii "\r") :=
    Text.isWhiteSpace_encoded (by decide : '\r' ∈ Text.whiteSpace)
  have waiting : Source.Edits (id ∘ Source.movedDown 0 ∘ id)
      (Text.splitOn Text.newline waitLoop) commentedWaitLoop :=
    .step (.step (.refl _)
      (.insert [] _ (blank.append blank) (.inr ⟨Text.ascii " wait", rfl⟩)))
      (.surround [_, _] [_] (Text.ascii "@END") tab blank (by decide)
        (.inr ⟨Text.ascii "again", rfl⟩) ending)
  have stray : Source.Edits (id ∘ Source.movedDown 1 ∘ id)
      (Text.splitOn Text.newline straySlash) commentedSlash :=
    .step (.step (.refl _) (.insert [_] [_] .nil (.inl rfl)))
      (.surround [_, _] [] (Text.ascii "D=X/") .nil blank (by decide)
        (.inr ⟨Text.ascii "?", rfl⟩) .nil)
  obtain ⟨p, assembled, words, sourceMap⟩ : ∃ p, assembleText waitLoop = .ok p ∧
      p.words = #[0x0000, 0xEA87] ∧ p.sourceMap = [(0, 2), (1, 3)] := ⟨_, rfl, rfl, rfl⟩
  have refused : assembleText straySlash = .error
      (.line ⟨⟨2, Text.ascii "D=X/"⟩, .malformed (.computation (Text.ascii "X/"))⟩) := rfl
  have outcome := formatting_does_not_matter waiting (by decide)
  have outcome' := formatting_does_not_matter stray (by decide)
  rw [assembled] at outcome
  rw [refused] at outcome'
  obtain ⟨p', assembled', words', -, sourceMap'⟩ := outcome
  refine ⟨⟨p', assembled', words'.trans words, ?_⟩, outcome'⟩
  rw [sourceMap', sourceMap]
  rfl

end HackMachine
