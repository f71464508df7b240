import HackMachine.Proofs.Assembly.SourceMap

/-!
# Appending code

The first pass reads a program to its end before the second encodes the first line, so every line
could have a say in every word.  This file shows that it has none, as long as the lines that are
appended do not define a label that an earlier line uses as an operand (`appending_keeps_code`).

The condition is about the meaning of names.  An operand that is not a label is a variable, and a
label of that name further down makes it something else; then the other variables move up as well.
Without such a label, the appended lines leave alone

* the labels, which are numbered from the front (`labelAddress?_append_of_some`),
* the variables of the earlier lines, which are numbered by first use (`variablesIn_append`),
* and so all bindings (`binding?_append_of_some`) and the instructions that lines mean
  (`means_append`).

That the program is longer does matter to one kind of label, but not to a program that assembles: a
label at the end of the earlier lines becomes one that an instruction follows, and no earlier line
could use it.
-/

namespace HackMachine

namespace Meaning

/-- The names that are used as operands, in order. -/
def operands (lines : List SourceLine) : List Text := (operations lines).filterMap (·.name?)

/-- The names that are defined as labels, in order. -/
def labels (lines : List SourceLine) : List Text := lines.filterMap (·.label?)

section Names

variable {lines more : List SourceLine} {name : Text}

/-- A label keeps its address. -/
theorem labelAddress?_append_of_some {address : Nat} (h : labelAddress? lines name = some address)
    (more : List SourceLine) : labelAddress? (lines ++ more) name = some address := by
  rw [labelAddress?_append, h]

/-- A name that the appended lines do not define is a label only if it was one. -/
theorem labelAddress?_append_of_not_mem (h : name ∉ labels more) :
    labelAddress? (lines ++ more) name = labelAddress? lines name := by
  have undefined : labelAddress? more name = none := by
    rw [← Option.not_isSome_iff_eq_none, labelAddress?_isSome_iff]
    rintro ⟨j, line, at_j, label⟩
    exact h (List.mem_filterMap.2 ⟨line, List.mem_of_getElem? at_j, label⟩)
  rw [labelAddress?_append, undefined]
  cases labelAddress? lines name <;> rfl

variable (apart : ∀ name ∈ operands lines, name ∉ labels more)
include apart

/-- The variables of the earlier lines stay the same, and in the same order. -/
theorem variablesIn_append : variablesIn (lines ++ more) lines = variablesIn lines lines := by
  unfold variablesIn
  congr 1
  apply List.filter_congr
  intro name used
  rw [isVariable, isVariable, labelAddress?_append_of_not_mem (apart name used)]

/-- What is bound stays bound in the same way. -/
theorem binding?_append_of_some {b : Binding} (h : binding? lines name = some b) :
    binding? (lines ++ more) name = some b := by
  rcases bindingIn?_cases h with ⟨a, hp, rfl⟩ | ⟨a, hp, hl, rfl⟩ | ⟨k, -, used, rfl⟩
  · exact bindingIn?_of_predefined hp _ _
  · exact bindingIn?_of_label hp (labelAddress?_append_of_some hl more) _
  · rw [← variablesIn_append apart] at used
    exact binding?_of_part (List.prefix_append lines more) (bindingIn?_of_idxOf? used)

/-- An operation that means an instruction goes on to mean it. -/
theorem means_append {op : Operation} {i : Instruction} (h : Means lines op i) :
    Means (lines ++ more) op i := by
  cases op with
  | compute dest comp jump => exact h
  | address operand =>
    cases i with
    | compute => cases operand <;> exact h.elim
    | load address =>
      cases operand with
      | literal value => exact h
      | symbol name =>
        obtain ⟨kind, bound⟩ := h
        exact ⟨kind, binding?_append_of_some apart bound⟩

end Names

/-- An operation means one instruction at most. -/
theorem means_unique {lines : List SourceLine} {op : Operation} {i j : Instruction}
    (hi : Means lines op i) (hj : Means lines op j) : i = j := by
  cases op with
  | compute dest comp jump =>
    have fields : Instruction.ofFields dest comp jump = .ok i := hi
    exact Except.ok.inj (fields.symm.trans hj)
  | address operand =>
    cases i with
    | compute => cases operand <;> exact hi.elim
    | load a =>
      cases j with
      | compute => cases operand <;> exact hj.elim
      | load b =>
        have same : a.val = b.val := by
          cases operand with
          | literal value =>
            have loads : a.val = value := hi
            exact loads.trans (Eq.symm hj)
          | symbol name =>
            obtain ⟨kind, ha⟩ := hi
            obtain ⟨kind', hb⟩ := hj
            have address := (Binding.mk.inj (Option.some.inj (ha.symm.trans hb))).1
            exact Int.ofNat_inj.1 address
        rw [Fin.ext same]

/-- What is emitted for an instruction line: the word of its instruction, with its number. -/
def Emits (lines : List SourceLine) (l : Located) (c : Emitted) : Prop :=
  (∃ i, Means lines l.op i ∧ c.word = i.encode) ∧ c.line = l.line.number

theorem emits_unique {lines : List SourceLine} : Relator.RightUnique (Emits lines) := by
  rintro l ⟨w, n⟩ ⟨w', n'⟩ ⟨⟨i, means, isWord⟩, number⟩ ⟨⟨i', means', isWord'⟩, number'⟩
  cases means_unique means means'
  rw [Emitted.mk.injEq]
  exact ⟨isWord.trans isWord'.symm, number.trans number'.symm⟩

end Meaning

open Meaning

/-! ## Programs -/

section Programs

variable {lines more : List SourceLine} {p q : Program}

theorem emits_of_assembleLines (h : assembleLines lines = .ok p) :
    List.Forall₂ (Emits lines) (located lines) p.code.toList := by
  obtain ⟨-, e, d, rfl⟩ := describes_of_assembleLines_ok h
  exact d.code

/-- What has been emitted is emitted again, and what belongs to the appended lines follows. -/
theorem code_prefix_of_append (apart : ∀ name ∈ operands lines, name ∉ labels more)
    (short : assembleLines lines = .ok p) (long : assembleLines (lines ++ more) = .ok q) :
    p.code.toList <+: q.code.toList := by
  have again : List.Forall₂ (Emits (lines ++ more)) (located lines) p.code.toList := by
    refine (emits_of_assembleLines short).imp ?_
    rintro l c ⟨⟨i, means, isWord⟩, number⟩
    exact ⟨⟨i, means_append apart means, isWord⟩, number⟩
  have first := List.forall₂_take (located lines).length (emits_of_assembleLines long)
  rw [located_append, List.take_left] at first
  rw [List.right_unique_forall₂' emits_unique again first]
  exact List.take_prefix _ _

/-- Programs of which one starts with the code of the other have the same lines for the same
addresses. -/
theorem Program.mem_sourceMap_iff_of_code (h : p.code.toList <+: q.code.toList) {k : Nat}
    (inside : k < p.words.size) (n : Int) : (k, n) ∈ q.sourceMap ↔ (k, n) ∈ p.sourceMap := by
  have size : p.words.size = p.code.toList.length := by simp [words]
  obtain ⟨rest, same⟩ := h
  rw [mem_sourceMap_iff, mem_sourceMap_iff, ← same, List.getElem?_append_left (size ▸ inside)]

/-- A symbol is listed again, and nothing else under its name. -/
theorem mem_symbols_of_append (apart : ∀ name ∈ operands lines, name ∉ labels more)
    (short : assembleLines lines = .ok p) (long : assembleLines (lines ++ more) = .ok q)
    {s : Symbol} (hs : s ∈ p.symbols) :
    s ∈ q.symbols ∧ ∀ t ∈ q.symbols, t.name = s.name → t = s := by
  obtain ⟨-, e, d, rfl⟩ := describes_of_assembleLines_ok short
  have bound := SymbolTable.mem_symbols_iff.1 hs
  rw [d.knows.lookup] at bound
  have listed := mem_symbols_of_binding? long (binding?_append_of_some apart bound)
  obtain ⟨-, e', -, rfl⟩ := describes_of_assembleLines_ok long
  refine ⟨listed, fun t ht same => ?_⟩
  exact List.inj_on_of_nodup_map (SymbolTable.nodup_names_symbols _) ht listed same

end Programs

/-- Appending code changes nothing about the code that is there.  Take lines that assemble, and that
still assemble with more lines behind them, where the further lines define no label that the first
ones use as an operand.  Then the words of the first lines are the first words of the whole, they
come from the same lines, and every symbol of the first lines is a symbol of the whole with the same
address and kind, and the only one of its name. -/
theorem appending_keeps_code {lines more : List SourceLine} {p q : Program}
    (short : assembleLines lines = .ok p) (long : assembleLines (lines ++ more) = .ok q)
    (apart : ∀ name ∈ operands lines, name ∉ labels more) :
    p.words.toList <+: q.words.toList ∧
      (∀ k < p.words.size, ∀ n, (k, n) ∈ q.sourceMap ↔ (k, n) ∈ p.sourceMap) ∧
      ∀ s ∈ p.symbols, s ∈ q.symbols ∧ ∀ t ∈ q.symbols, t.name = s.name → t = s := by
  have code := code_prefix_of_append apart short long
  refine ⟨?_, fun k inside => Program.mem_sourceMap_iff_of_code code inside,
    fun s => mem_symbols_of_append apart short long⟩
  simpa only [Program.words] using code.map (·.word)

/-- A program that ends with a label. -/
def storeOne : List SourceLine :=
  [⟨1, Text.ascii "@i"⟩, ⟨2, Text.ascii "M=1"⟩, ⟨3, Text.ascii "(NEXT)"⟩]

/-- Lines that use this label, another variable and a label of their own. -/
def waitForever : List SourceLine :=
  [⟨1, Text.ascii "@j"⟩, ⟨2, Text.ascii "M=0"⟩, ⟨3, Text.ascii "(j.loop)"⟩, ⟨4, Text.ascii "@NEXT"⟩,
    ⟨5, Text.ascii "0;JMP"⟩]

theorem appending_keeps_code_waitForever :
    ∃ p q, assembleLines storeOne = .ok p ∧ assembleLines (storeOne ++ waitForever) = .ok q ∧
      p.words.toList = [16, 0xEFC8] ∧ q.words.toList = [16, 0xEFC8, 17, 0xEA88, 2, 0xEA87] ∧
      p.words.toList <+: q.words.toList ∧
      (∀ k < p.words.size, ∀ n, (k, n) ∈ q.sourceMap ↔ (k, n) ∈ p.sourceMap) ∧
      ∀ s ∈ p.symbols, s ∈ q.symbols ∧ ∀ t ∈ q.symbols, t.name = s.name → t = s := by
  have words : (assembleLines storeOne).map (·.words.toList) = .ok [16, 0xEFC8] := rfl
  have words' : (assembleLines (storeOne ++ waitForever)).map (·.words.toList) =
      .ok [16, 0xEFC8, 17, 0xEA88, 2, 0xEA87] := rfl
  cases short : assembleLines storeOne with
  | error fault =>
    rw [short] at words
    cases words
  | ok p =>
    cases long : assembleLines (storeOne ++ waitForever) with
    | error fault =>
      rw [long] at words'
      cases words'
    | ok q =>
      rw [short] at words
      rw [long] at words'
      exact ⟨p, q, rfl, rfl, Except.ok.inj words, Except.ok.inj words',
        appending_keeps_code short long (by decide)⟩

/-- A label that has been used as a variable changes the word of its first use. -/
example : (assembleLines [⟨1, Text.ascii "@x"⟩]).map (·.words.toList) = .ok [16] ∧
    (assembleLines ([⟨1, Text.ascii "@x"⟩] ++ [⟨2, Text.ascii "(x)"⟩, ⟨3, Text.ascii "0"⟩])).map
      (·.words.toList) = .ok [1, 0xEA80] :=
  ⟨rfl, rfl⟩

end HackMachine
