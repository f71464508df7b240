import HackMachine.Proofs.Source.Cleaning

/-!
# Reading texts one after the other

A text that ends in a line feed can be read by itself, and what follows it can be read by itself:
reading both at once gives the lines of the first and then the lines of the second, whose numbers
are raised by the number of line feeds in the first.  The same holds of the fault that is reported
if a line is too long.

`read` first looks for a line that is too long and then keeps what is left of all lines.  `readFrom`
is the loop that does both at once, line by line, and has the number of the next line as its state.
It is the same function (`read_eq_readFrom`), and the two facts about concatenation are inductions
over it:

* `readFrom_append`: lines in two parts are read part by part;
* `readFrom_add`: the number of the first line is added to all numbers.

For whole texts there is one more thing to see: the lines of two texts are the lines of the first
and the lines of the second only if the first ends in a line feed or is empty
(`physicalLines_append_of_ended`).
-/

namespace HackMachine

/-- A line with another number. -/
def SourceLine.renumber (f : Int → Int) (line : SourceLine) : SourceLine :=
  { line with number := f line.number }

namespace Source

/-- The same obstacle, met `c` lines further down. -/
def Fault.lower (c : Nat) (fault : Fault) : Fault := { fault with line := fault.line + c }

/-! ## The loop -/

/-- Read lines one after the other, the first of which has number `n`. -/
def readFrom : (n : Nat) → List Text → Except Fault (List SourceLine)
  | _, [] => .ok []
  | n, line :: lines =>
    if lineLimit ≤ line.length then .error ⟨n, .lineTooLong⟩
    else (readFrom (n + 1) lines).map ((sourceLine? (line, n)).toList ++ ·)

theorem readFrom_cons_of_long {line : Text} (h : lineLimit ≤ line.length) (n : Nat)
    (lines : List Text) : readFrom n (line :: lines) = .error ⟨n, .lineTooLong⟩ := by
  rw [readFrom, if_pos h]

theorem readFrom_cons_of_short {line : Text} (h : ¬ lineLimit ≤ line.length) (n : Nat)
    (lines : List Text) :
    readFrom n (line :: lines) =
      (readFrom (n + 1) lines).map ((sourceLine? (line, n)).toList ++ ·) := by
  rw [readFrom, if_neg h]

/-- The loop finds the first line that is too long, or keeps what is left of all lines. -/
theorem readFrom_eq (n : Nat) (lines : List Text) :
    readFrom n lines =
      match (lines.zipIdx n).find? (fun line => lineLimit ≤ line.1.length) with
      | some long => .error ⟨long.2, .lineTooLong⟩
      | none => .ok (keptFrom n lines) := by
  induction lines generalizing n with
  | nil => rfl
  | cons line lines ih =>
    rw [List.zipIdx_cons, List.find?_cons]
    by_cases long : lineLimit ≤ line.length
    · rw [readFrom_cons_of_long long]
      simp only [long, decide_true]
    · rw [readFrom_cons_of_short long, ih, keptFrom_cons]
      simp only [long, decide_false]
      cases (lines.zipIdx (n + 1)).find? (fun line => lineLimit ≤ line.1.length) <;> rfl

theorem read_eq_readFrom (t : Text) : read t = readFrom 1 (physicalLines t) := by
  rw [readFrom_eq]
  rfl

/-- Lines in two parts are read part by part. -/
theorem readFrom_append (n : Nat) (lines more : List Text) :
    readFrom n (lines ++ more) =
      (readFrom n lines).bind fun first =>
        (readFrom (n + lines.length) more).map (first ++ ·) := by
  induction lines generalizing n with
  | nil =>
    rw [List.nil_append, List.length_nil, Nat.add_zero]
    cases readFrom n more <;> rfl
  | cons line lines ih =>
    rw [List.cons_append]
    by_cases long : lineLimit ≤ line.length
    · rw [readFrom_cons_of_long long, readFrom_cons_of_long long]
      rfl
    · have next : n + 1 + lines.length = n + (line :: lines).length := by
        rw [List.length_cons]
        omega
      rw [readFrom_cons_of_short long, readFrom_cons_of_short long, ih, next]
      cases readFrom (n + 1) lines with
      | error fault => rfl
      | ok first =>
        cases readFrom (n + (line :: lines).length) more with
        | error fault => rfl
        | ok second => exact congrArg Except.ok (List.append_assoc ..).symm

theorem sourceLine?_add (line : Text) (n c : Nat) :
    sourceLine? (line, n + c) = (sourceLine? (line, n)).map (·.renumber (· + c)) := by
  unfold sourceLine?
  split
  · rfl
  · rfl

/-- The number of the first line is added to all numbers. -/
theorem readFrom_add (n c : Nat) (lines : List Text) :
    readFrom (n + c) lines =
      ((readFrom n lines).map (·.map (·.renumber (· + c)))).mapError (·.lower c) := by
  induction lines generalizing n with
  | nil => rfl
  | cons line lines ih =>
    by_cases long : lineLimit ≤ line.length
    · rw [readFrom_cons_of_long long, readFrom_cons_of_long long]
      rfl
    · have next : n + c + 1 = n + 1 + c := by omega
      rw [readFrom_cons_of_short long, readFrom_cons_of_short long, next, ih, sourceLine?_add]
      cases readFrom (n + 1) lines with
      | error fault => rfl
      | ok kept =>
        cases sourceLine? (line, n) <;> rfl

/-! ## Whole texts -/

/-- Whether another text can follow without a line running on: the text is empty or ends in a line
feed. -/
def IsEnded (t : Text) : Prop := t = [] ∨ t.getLast? = some Text.newline

theorem IsEnded.behind {first more : Text} (h : IsEnded (first ++ Text.newline :: more)) :
    IsEnded more := by
  by_cases empty : more = []
  · exact .inl empty
  · rcases h with none | last
    · simp at none
    · right
      rwa [List.getLast?_append_of_ne_nil _ (List.cons_ne_nil _ _),
        List.getLast?_cons_of_ne_nil empty] at last

/-- The lines of two texts, of which the first is complete. -/
theorem physicalLines_append_of_ended {a : Text} (h : IsEnded a) (b : Text) :
    physicalLines (a ++ b) = physicalLines a ++ physicalLines b ∧
      (physicalLines a).length = a.count Text.newline := by
  induction a using Text.cutInduction Text.newline with
  | whole a none =>
    rcases h with rfl | last
    · exact ⟨rfl, rfl⟩
    · exact absurd (List.mem_of_getLast? last) none
  | parts first more none ih =>
    obtain ⟨lines, count⟩ := ih h.behind
    rw [List.append_assoc, List.cons_append, physicalLines_append none, physicalLines_append none]
    refine ⟨by rw [lines, List.cons_append], ?_⟩
    rw [List.length_cons, count, List.count_append, List.count_eq_zero.2 none, List.count_cons_self,
      Nat.zero_add]

/-- Two texts are read one after the other if the first is complete. -/
theorem read_append {a : Text} (h : IsEnded a) (b : Text) :
    read (a ++ b) =
      (read a).bind fun first =>
        (((read b).map (·.map (·.renumber (· + (a.count Text.newline : Nat))))).mapError
          (·.lower (a.count Text.newline))).map (first ++ ·) := by
  obtain ⟨lines, count⟩ := physicalLines_append_of_ended h b
  rw [read_eq_readFrom, lines, readFrom_append, count, readFrom_add, ← read_eq_readFrom,
    ← read_eq_readFrom]

/-- What is read is not empty, and cleaning leaves it as it is. -/
theorem clean_of_mem_read {t : Text} {lines : List SourceLine} (h : read t = .ok lines)
    {line : SourceLine} (hline : line ∈ lines) :
    line.text ≠ [] ∧ clean line.text = line.text ∧ ¬ commentMark <:+: line.text := by
  obtain ⟨n, raw, -, rfl, visible⟩ := (mem_read_iff h).1 hline
  exact ⟨visible, clean_clean raw, not_infix_clean raw⟩

/-- Reading is compositional.  Let `a` be empty or end in a line feed, and let `c` be the number of
its line feeds.  Then `a` followed by `b` is read as follows.

* If both can be read, it gives the lines of `a` and then those of `b` with numbers raised by `c`.
* If `a` cannot be read, neither can both together, and for the same reason.
* If only `b` cannot be read, neither can both together, and the obstacle is `c` lines further down.

Every line that is read from a text is not empty, is left as it is by cleaning and contains no `//`,
and the numbers of the lines increase. -/
theorem reading_is_compositional :
    (∀ a b : Text, a = [] ∨ a.getLast? = some Text.newline →
      (∀ first second, read a = .ok first → read b = .ok second →
        read (a ++ b) = .ok (first ++ second.map fun line =>
          ⟨line.number + (a.count Text.newline : Nat), line.text⟩)) ∧
      (∀ fault, read a = .error fault → read (a ++ b) = .error fault) ∧
      ∀ first n obstacle, read a = .ok first → read b = .error ⟨n, obstacle⟩ →
        read (a ++ b) = .error ⟨n + a.count Text.newline, obstacle⟩) ∧
    ∀ t lines, read t = .ok lines →
      (∀ line ∈ lines, line.text ≠ [] ∧ clean line.text = line.text ∧
        ¬ Text.ascii "//" <:+: line.text) ∧
      lines.Pairwise fun line later => line.number < later.number := by
  refine ⟨fun a b ended => ?_, fun t lines h => ⟨fun _ => clean_of_mem_read h, pairwise_read h⟩⟩
  have both := read_append (a := a) ended b
  refine ⟨fun first second ha hb => ?_, fun fault ha => ?_, fun first n obstacle ha hb => ?_⟩
  · rw [both, ha, hb]
    rfl
  · rw [both, ha]
    rfl
  · rw [both, ha, hb]
    rfl

/-- Two lines with a comment above them. -/
def commentedLoad : Text := Text.ascii "// two\n@2 // A\n"

/-- A text whose only line is one byte too long. -/
def overlong : Text := List.replicate lineLimit (Text.byte '0')

theorem reading_is_compositional_overlong :
    read (commentedLoad ++ Text.ascii "\nD=A") =
        .ok [⟨2, Text.ascii "@2"⟩, ⟨4, Text.ascii "D=A"⟩] ∧
      read (commentedLoad ++ overlong) = .error ⟨3, .lineTooLong⟩ ∧
      read (overlong ++ [Text.newline] ++ commentedLoad) = .error ⟨1, .lineTooLong⟩ := by
  have noNewline : Text.newline ∉ overlong := fun h =>
    absurd (List.eq_of_mem_replicate h) (by decide)
  have long : lineLimit ≤ overlong.length := by simp [overlong]
  have first : read commentedLoad = .ok [⟨2, Text.ascii "@2"⟩] := rfl
  have second : read (Text.ascii "\nD=A") = .ok [⟨2, Text.ascii "D=A"⟩] := rfl
  have alone : read overlong = .error ⟨1, .lineTooLong⟩ := by
    have solid : overlong ≠ [] := by
      rintro empty
      rw [empty] at long
      cases long
    rw [read_eq_readFrom, physicalLines_of_not_mem noNewline, if_neg solid,
      readFrom_cons_of_long long]
  have ended : read (overlong ++ [Text.newline]) = .error ⟨1, .lineTooLong⟩ := by
    rw [read_eq_readFrom, physicalLines_append noNewline, readFrom_cons_of_long long]
  obtain ⟨compose, -⟩ := reading_is_compositional
  refine ⟨?_, ?_, ?_⟩
  · exact (compose _ _ (.inr rfl)).1 _ _ first second
  · exact (compose _ _ (.inr rfl)).2.2 _ _ _ first alone
  · exact (compose _ _ (.inr List.getLast?_concat)).2.1 _ ended

end Source
end HackMachine
