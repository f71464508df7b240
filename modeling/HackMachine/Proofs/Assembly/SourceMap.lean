import HackMachine.Proofs.Assembly.Correctness
import HackMachine.Proofs.Instruction.Codec
import HackMachine.Proofs.Source

/-!
# Where words come from

A program remembers for each word the line it comes from.  Three numberings meet here: the lines of
the text, the lines that are left when blank ones and comments are gone, and the addresses of the
words.  The reader keeps the first with the second (`Source.mem_read_iff`, `Source.pairwise_read`),
and the assembler emits one word for each instruction line in order, so the third follows the
second (`numbers_of_assembleLines`).

`StatementAt` speaks of the text only: line `n` of the text, cleaned, is some statement.  In these
terms (`source_positions_are_right`) the instruction lines of the text are the lines of the source
map, each once and in order, and a label stands for the first instruction line behind its own.  A
fault names a line of the text as well.

The second pass keeps one array, in which each word stands beside its line, and the words and the
source map are read off it at the end.  `Ledger` is a second pass that keeps the two apart: it
appends a word and writes the line under the number of words before it.  It comes to the same
(`scan_ledger`, `ledger_of_assembleLines`), so no entry of the map is ever written over.
-/

namespace HackMachine

open Meaning

/-- Line `n` of a text is a statement. -/
def StatementAt (t : Text) (n : Nat) (s : Statement) : Prop :=
  ∃ raw, Source.IsLine t n raw ∧ Statement.parse (Source.clean raw) = .ok s

/-- The instruction of an operation in a program: a literal is loaded as it is, a name is loaded as
the address of a symbol, and the fields of a computation are the instruction they spell. -/
def Program.Means (p : Program) : Operation → Instruction → Prop
  | .address (.literal value), .load address => address.val = value
  | .address (.symbol name), .load address =>
    ∃ s ∈ p.symbols, s.name = name ∧ s.address = address.val
  | .compute dest comp jump, i => Instruction.ofFields dest comp jump = .ok i
  | _, _ => False

/-! ## The source map of a program -/

namespace Program

variable (p : Program)

/-- The addresses of a source map are those of the words. -/
theorem map_fst_sourceMap : p.sourceMap.map (·.1) = List.range p.words.size := by
  have size : p.words.size = p.code.toList.length := by simp [words]
  rw [sourceMap, List.map_map, size, List.range_eq_range']
  exact List.zipIdx_map_snd 0 p.code.toList

theorem map_snd_sourceMap : p.sourceMap.map (·.2) = p.code.toList.map (·.line) := by
  rw [sourceMap, List.map_map]
  conv_rhs => rw [← List.zipIdx_map_fst 0 p.code.toList, List.map_map]
  rfl

variable {p}

theorem mem_sourceMap_iff {k : Nat} {n : Int} :
    (k, n) ∈ p.sourceMap ↔ ∃ c, p.code.toList[k]? = some c ∧ c.line = n := by
  rw [sourceMap, List.mem_map]
  constructor
  · rintro ⟨⟨c, k'⟩, hmem, same⟩
    obtain ⟨rfl, rfl⟩ := Prod.mk.inj same
    exact ⟨c, List.mk_mem_zipIdx_iff_getElem?.1 hmem, rfl⟩
  · rintro ⟨c, at_k, rfl⟩
    exact ⟨(c, k), List.mk_mem_zipIdx_iff_getElem?.2 at_k, rfl⟩

theorem getElem?_words {k : Nat} {c : Emitted} (h : p.code.toList[k]? = some c) :
    p.words[k]? = some c.word := by
  rw [words, List.getElem?_toArray, List.getElem?_map, h]
  rfl

end Program

/-! ## Words and source map kept apart -/

/-- What a second pass has produced if it collects the words and, under their addresses, the numbers
of their lines. -/
structure Ledger where
  table : SymbolTable
  resolver : Resolver
  words : Array Word
  sourceMap : Nat → Option Int

namespace Ledger

/-- Take the word of a line: it is the next one, and its line is written under its address. -/
def enter (ledger : Ledger) (word : Word) (number : Int) : Ledger :=
  { ledger with
    words := ledger.words.push word
    sourceMap := Function.update ledger.sourceMap ledger.words.size (some number) }

/-- Take one more line. -/
def addLine (ledger : Ledger) (line : SourceLine) : Ledger × Option LineFault :=
  match Statement.parse line.text with
  | .error fault => (ledger, some ⟨line, .ofStatement fault⟩)
  | .ok (.label _) => (ledger, none)
  | .ok (.operation op) =>
    match (Emission.mk ledger.table ledger.resolver #[]).encode op with
    | (e, .error fault) =>
      ({ ledger with table := e.table, resolver := e.resolver }, some ⟨line, fault⟩)
    | (e, .ok word) =>
      ({ ledger with table := e.table, resolver := e.resolver }.enter word line.number, none)

end Ledger

namespace Emission

/-- The words and the source map of what has been emitted. -/
def ledger (e : Emission) : Ledger where
  table := e.table
  resolver := e.resolver
  words := e.code.map (·.word)
  sourceMap k := e.code[k]?.map (·.line)

/-- A new entry of the array is a word behind the others and an entry of the map. -/
theorem ledger_push (e : Emission) (c : Emitted) :
    ledger { e with code := e.code.push c } = e.ledger.enter c.word c.line := by
  have map : (ledger { e with code := e.code.push c }).sourceMap =
      Function.update e.ledger.sourceMap e.ledger.words.size (some c.line) := by
    funext k
    by_cases here : k = e.code.size
    · simp [ledger, here]
    · simp [ledger, Array.getElem?_push, here]
  rw [Ledger.enter, ← map]
  simp [ledger]

/-- One line is entered in the ledger as it is in the array, or fails in both. -/
theorem ledger_addLine (e : Emission) (line : SourceLine) :
    e.ledger.addLine line = Prod.map ledger id (e.addLine line) := by
  unfold Ledger.addLine addLine
  rcases Statement.parse line.text with fault | name | op
  · rfl
  · rfl
  · have names : mk e.ledger.table e.ledger.resolver #[] = mk e.table e.resolver #[] := rfl
    dsimp only
    rw [add, e.encode_eq op, names]
    rcases (mk e.table e.resolver #[]).encode op with ⟨next, fault | word⟩
    · rfl
    · exact congrArg (·, none) (ledger_push { next with code := e.code } ⟨word, line.number⟩).symm

/-- A second pass that keeps words and source map apart ends with the words and the source map of the
second pass. -/
theorem scan_ledger (e : Emission) (lines : List SourceLine) :
    scan Ledger.addLine e.ledger lines = Prod.map ledger id (scan addLine e lines) := by
  have step : ∀ e line, Ledger.addLine (ledger e) (id line) =
      Prod.map ledger (Option.map id) (addLine e line) := by
    intro e line
    rw [Option.map_id]
    exact ledger_addLine e line
  rw [← Option.map_id, ← scan_map step e lines, List.map_id]

end Emission

/-- The words and the source map of a program are what is collected in its second pass. -/
theorem ledger_of_assembleLines {lines : List SourceLine} {p : Program}
    (h : assembleLines lines = .ok p) :
    ∃ layout ledger, Layout.start.addLines lines = (layout, none) ∧
      scan Ledger.addLine (Emission.start layout).ledger lines = (ledger, none) ∧
      ledger.words = p.words ∧
      ∀ k n, ledger.sourceMap k = some n ↔ (k, n) ∈ p.sourceMap := by
  obtain ⟨layout, e, first, second, rfl⟩ := passes_of_assembleLines_ok h
  refine ⟨layout, e.ledger, first, ?_, ?_, fun k n => ?_⟩
  · rw [Emission.scan_ledger, second]
    rfl
  · apply Array.toList_inj.1
    rw [Emission.ledger, Program.words, Array.toList_map]
  · rw [Program.mem_sourceMap_iff, Emission.ledger, Option.map_eq_some_iff, Array.getElem?_toList]

section Lines

variable {lines : List SourceLine} {p : Program}

/-- The numbers in the source map are those of the instruction lines. -/
theorem numbers_of_assembleLines (h : assembleLines lines = .ok p) :
    p.sourceMap.map (·.2) = (located lines).map (·.line.number) := by
  obtain ⟨-, e, d, rfl⟩ := describes_of_assembleLines_ok h
  rw [Program.map_snd_sourceMap, ← List.forall₂_eq_eq_eq, List.forall₂_map_left_iff,
    List.forall₂_map_right_iff]
  exact d.code.flip.imp fun _ _ emitted => emitted.2

/-- What a name is bound to is listed as a symbol. -/
theorem mem_symbols_of_binding? (h : assembleLines lines = .ok p) {s : Symbol}
    (bound : binding? lines s.name = some ⟨s.address, s.kind⟩) : s ∈ p.symbols := by
  obtain ⟨-, e, d, rfl⟩ := describes_of_assembleLines_ok h
  rw [SymbolTable.mem_symbols_iff, d.knows.lookup]
  exact bound

/-- What an operation means among the lines is what it means in the program. -/
theorem means_of_assembleLines (h : assembleLines lines = .ok p) {op : Operation}
    {i : Instruction} (means : Means lines op i) : p.Means op i := by
  cases op with
  | compute dest comp jump => exact means
  | address operand =>
    cases i with
    | compute => cases operand <;> exact means.elim
    | load address =>
      cases operand with
      | literal value => exact means
      | symbol name =>
        obtain ⟨kind, bound⟩ := means
        exact ⟨⟨name, address.val, kind⟩, mem_symbols_of_binding? h bound, rfl, rfl⟩

/-- The word at each address is that of the instruction line that the source map names. -/
theorem exists_located_of_mem_sourceMap (h : assembleLines lines = .ok p) {k : Nat} {n : Int}
    (hk : (k, n) ∈ p.sourceMap) :
    ∃ l i, (located lines)[k]? = some l ∧ l.line.number = n ∧
      p.words[k]? = some i.encode ∧ p.Means l.op i := by
  obtain ⟨c, at_k, rfl⟩ := Program.mem_sourceMap_iff.1 hk
  obtain ⟨-, e, d, same⟩ := describes_of_assembleLines_ok h
  have code := d.code
  rw [show e.code = p.code by rw [same]] at code
  obtain ⟨inside, rfl⟩ := List.getElem?_eq_some_iff.1 at_k
  obtain ⟨lengths, each⟩ := List.forall₂_iff_get.1 code
  obtain ⟨⟨i, means, isWord⟩, number⟩ := each k (by omega) inside
  have word : p.code.toList[k].word = i.encode := isWord
  refine ⟨(located lines)[k], i, List.getElem?_eq_getElem (by omega), number.symm, ?_,
    means_of_assembleLines h means⟩
  rw [Program.getElem?_words at_k, word]

/-! ## Instruction lines in order -/

theorem exists_line_of_mem_located {l : Located} (h : l ∈ located lines) :
    l.line ∈ lines ∧ l.line.operation? = some l.op := by
  obtain ⟨line, hmem, hl⟩ := List.mem_filterMap.1 h
  obtain ⟨op, hop, rfl⟩ := Option.map_eq_some_iff.1 hl
  exact ⟨hmem, hop⟩

theorem mem_located {line : SourceLine} {op : Operation} (h : line ∈ lines)
    (hop : line.operation? = some op) : ⟨line, op⟩ ∈ located lines :=
  List.mem_filterMap.2 ⟨line, h, by rw [hop]; rfl⟩

/-- Instruction lines are in the order of the lines. -/
theorem pairwise_located (sorted : lines.Pairwise fun a b => a.number < b.number) :
    (located lines).Pairwise fun a b => a.line.number < b.line.number := by
  rw [located, List.pairwise_filterMap]
  refine sorted.imp ?_
  intro a b lt l hl l' hl'
  obtain ⟨op, -, rfl⟩ := Option.map_eq_some_iff.1 hl
  obtain ⟨op', -, rfl⟩ := Option.map_eq_some_iff.1 hl'
  exact lt

/-- The first instruction line behind a line that is not an instruction has a greater number, and no
instruction line has a number in between. -/
theorem first_located_after {before after : List SourceLine} {line : SourceLine}
    (sorted : (before ++ line :: after).Pairwise fun a b => a.number < b.number)
    (noOperation : line.operation? = none) {l : Located} {rest : List Located}
    (first : located after = l :: rest) :
    line.number < l.line.number ∧
      ∀ other ∈ before ++ line :: after, other.operation? ≠ none → line.number < other.number →
        l.line.number ≤ other.number := by
  obtain ⟨-, behind, apart⟩ := List.pairwise_append.1 sorted
  obtain ⟨greater, sortedAfter⟩ := List.pairwise_cons.1 behind
  have hl : l ∈ located after := by
    rw [first]
    exact List.mem_cons_self
  refine ⟨greater _ (exists_line_of_mem_located hl).1, ?_⟩
  intro other hother isOperation lt
  rcases List.mem_append.1 hother with hbefore | hbehind
  · have := apart other hbefore line List.mem_cons_self
    omega
  rcases List.mem_cons.1 hbehind with rfl | hafter
  · exact absurd noOperation isOperation
  obtain ⟨op, hop⟩ := Option.ne_none_iff_exists'.1 isOperation
  have listed := mem_located hafter hop
  have inOrder := pairwise_located sortedAfter
  rw [first] at listed inOrder
  rcases List.mem_cons.1 listed with rfl | later
  · exact Int.le_refl _
  · exact Int.le_of_lt ((List.pairwise_cons.1 inOrder).1 _ later)

/-- A label stands for the number of instruction lines before it, so the instruction line with that
number is the first behind it. -/
theorem first_located_of_label (sorted : lines.Pairwise fun a b => a.number < b.number)
    (clean : ∀ i fault, ¬ LayoutFault lines i fault) {line : SourceLine} {name : Text}
    (hline : line ∈ lines) (label : line.label? = some name) :
    ∃ a : Nat, binding? lines name = some ⟨a, .label⟩ ∧
      ∀ l, (located lines)[a]? = some l → line.number < l.line.number ∧
        ∀ other ∈ lines, other.operation? ≠ none → line.number < other.number →
          l.line.number ≤ other.number := by
  obtain ⟨j, at_j⟩ := List.mem_iff_getElem?.1 hline
  obtain ⟨new, defined⟩ := labelAddress?_of_clean clean at_j label
  refine ⟨(operations (lines.take j)).length, bindingIn?_of_label new defined lines, ?_⟩
  intro l at_a
  have noOperation : line.operation? = none := by
    rw [SourceLine.operation?, SourceLine.label?_eq_some_iff.1 label]
  obtain ⟨inside, rfl⟩ := List.getElem?_eq_some_iff.1 at_j
  have split : lines = lines.take j ++ lines[j] :: lines.drop (j + 1) := by
    rw [← List.drop_eq_getElem_cons inside, List.take_append_drop]
  have skip : located (lines[j] :: lines.drop (j + 1)) = located (lines.drop (j + 1)) := by
    rw [located, List.filterMap_cons_none (by rw [noOperation]; rfl)]
    rfl
  -- the instruction lines before the label are as many as its address says
  have parts : located lines = located (lines.take j) ++ located (lines.drop (j + 1)) := by
    rw [← skip, ← located_append, ← split]
  rw [parts, ← length_located, List.getElem?_append_right (Nat.le_refl _), Nat.sub_self] at at_a
  obtain ⟨rest, first⟩ : ∃ rest, located (lines.drop (j + 1)) = l :: rest := by
    cases h : located (lines.drop (j + 1)) with
    | nil => simp [h] at at_a
    | cons l' rest =>
      rw [h, List.getElem?_cons_zero, Option.some.injEq] at at_a
      exact ⟨rest, by rw [at_a]⟩
  rw [split] at sorted
  have behind := first_located_after sorted noOperation first
  rw [← split] at behind
  exact behind

end Lines

/-! ## The lines of the text -/

section Text

variable {t : Text} {lines : List SourceLine} {p : Program}

/-- The statements of a text are those of the lines read from it. -/
theorem statementAt_iff (h : Source.read t = .ok lines) {n : Nat} {s : Statement} :
    StatementAt t n s ↔ ∃ line ∈ lines, line.number = n ∧ Statement.parse line.text = .ok s := by
  constructor
  · rintro ⟨raw, isLine, parsed⟩
    have visible : Source.clean raw ≠ [] := by
      intro empty
      rw [empty] at parsed
      cases parsed
    exact ⟨⟨n, Source.clean raw⟩, (Source.mem_read_iff h).2 ⟨n, raw, isLine, rfl, visible⟩, rfl,
      parsed⟩
  · rintro ⟨line, hline, number, parsed⟩
    obtain ⟨m, raw, isLine, rfl, -⟩ := (Source.mem_read_iff h).1 hline
    obtain rfl : m = n := Int.ofNat_inj.1 number
    exact ⟨raw, isLine, parsed⟩

theorem exists_statementAt (h : Source.read t = .ok lines) {line : SourceLine}
    (hline : line ∈ lines) {s : Statement} (parsed : Statement.parse line.text = .ok s) :
    ∃ n : Nat, line.number = n ∧ StatementAt t n s := by
  obtain ⟨n, raw, isLine, rfl, -⟩ := (Source.mem_read_iff h).1 hline
  exact ⟨n, rfl, raw, isLine, parsed⟩

/-- Every entry of the source map leads from a word to the line with the instruction that it is. -/
theorem entry_decodes_to_line (h : Source.read t = .ok lines)
    (assembled : assembleLines lines = .ok p) {k : Nat} {n : Int} (entry : (k, n) ∈ p.sourceMap) :
    ∃ (number : Nat) (op : Operation) (w : Word) (i : Instruction), n = number ∧
      StatementAt t number (.operation op) ∧ p.words[k]? = some w ∧
      Instruction.decode w = .ok i ∧ p.Means op i := by
  obtain ⟨l, i, at_k, rfl, isWord, means⟩ := exists_located_of_mem_sourceMap assembled entry
  obtain ⟨hline, hop⟩ := exists_line_of_mem_located (List.mem_of_getElem? at_k)
  obtain ⟨number, same, here⟩ :=
    exists_statementAt h hline (SourceLine.operation?_eq_some_iff.1 hop)
  exact ⟨number, l.op, i.encode, i, same, here, isWord, i.decode_encode, means⟩

/-- Every instruction line has one entry in the source map. -/
theorem count_line_sourceMap (h : Source.read t = .ok lines)
    (assembled : assembleLines lines = .ok p) {n : Nat} {op : Operation}
    (here : StatementAt t n (.operation op)) : (p.sourceMap.map (·.2)).count (n : Int) = 1 := by
  obtain ⟨line, hline, number, parsed⟩ := (statementAt_iff h).1 here
  have listed := mem_located hline (SourceLine.operation?_eq_some_iff.2 parsed)
  rw [numbers_of_assembleLines assembled]
  apply List.count_eq_one_of_mem
  · rw [List.Nodup, List.pairwise_map]
    exact (pairwise_located (Source.pairwise_read h)).imp Int.ne_of_lt
  · exact List.mem_map.2 ⟨_, listed, number⟩

/-- A label is listed with an address, and the source map leads from there to the first instruction
line behind the label. -/
theorem label_leads_to_line (h : Source.read t = .ok lines)
    (assembled : assembleLines lines = .ok p) {j : Nat} {name : Text}
    (here : StatementAt t j (.label name)) :
    ∃ a : Nat, ⟨name, a, .label⟩ ∈ p.symbols ∧
      (a < p.words.size → ∃ n : Nat, (a, (n : Int)) ∈ p.sourceMap ∧ j < n ∧
        ∀ m op, StatementAt t m (.operation op) → j < m → n ≤ m) := by
  obtain ⟨line, hline, number, parsed⟩ := (statementAt_iff h).1 here
  have clean := (describes_of_assembleLines_ok assembled).1
  obtain ⟨a, bound, leads⟩ := first_located_of_label (Source.pairwise_read h) clean hline
    (SourceLine.label?_eq_some_iff.2 parsed)
  refine ⟨a, mem_symbols_of_binding? assembled bound, fun inside => ?_⟩
  -- some entry of the source map has this address, and it is that of an instruction line
  have addresses : a ∈ p.sourceMap.map (·.1) := by
    rw [p.map_fst_sourceMap]
    exact List.mem_range.2 inside
  obtain ⟨⟨_, n⟩, entry, rfl⟩ := List.mem_map.1 addresses
  obtain ⟨l, -, at_a, rfl, -, -⟩ := exists_located_of_mem_sourceMap assembled entry
  obtain ⟨hl, hop⟩ := exists_line_of_mem_located (List.mem_of_getElem? at_a)
  obtain ⟨n, same, -⟩ := exists_statementAt h hl (SourceLine.operation?_eq_some_iff.1 hop)
  obtain ⟨after, first⟩ := leads l at_a
  rw [same] at entry after first
  refine ⟨n, entry, by omega, fun m op later lt => ?_⟩
  obtain ⟨other, hother, otherNumber, otherParsed⟩ := (statementAt_iff h).1 later
  have isOperation : other.operation? ≠ none := by
    rw [SourceLine.operation?_eq_some_iff.2 otherParsed]
    exact Option.some_ne_none op
  have := first other hother isOperation (by omega)
  omega

/-- Every label that is listed stands on a line. -/
theorem exists_line_of_label_symbol (h : Source.read t = .ok lines)
    (assembled : assembleLines lines = .ok p) {s : Symbol} (listed : s ∈ p.symbols)
    (isLabel : s.kind = .label) : ∃ j, StatementAt t j (.label s.name) := by
  obtain ⟨-, e, d, rfl⟩ := describes_of_assembleLines_ok assembled
  rw [SymbolTable.mem_symbols_iff, d.knows.lookup, isLabel] at listed
  rcases bindingIn?_cases listed with ⟨_, -, same⟩ | ⟨a, -, defined, -⟩ | ⟨_, -, -, same⟩
  · exact absurd (congrArg Binding.kind same) (by simp)
  · obtain ⟨j, line, at_j, label, -⟩ := labelAddress?_eq_some_iff.1 defined
    obtain ⟨n, -, here⟩ := exists_statementAt h (List.mem_of_getElem? at_j)
      (SourceLine.label?_eq_some_iff.1 label)
    exact ⟨n, here⟩
  · exact absurd (congrArg Binding.kind same) (by simp)

/-- The line of a fault is a line of the text. -/
theorem exists_isLine_of_fault {f : LineFault} (h : assembleText t = .error (.line f)) :
    ∃ (n : Nat) (raw : Text), Source.IsLine t n raw ∧ f.line = ⟨n, Source.clean raw⟩ ∧
      f.line.text ≠ [] := by
  obtain ⟨lines, isRead, failed⟩ := assembleText_eq_line_iff.1 h
  have hline : f.line ∈ lines := by
    rcases first_fault_of_assembleLines_error failed with ⟨i, at_i, -⟩ | ⟨-, i, at_i, -⟩
    · exact List.mem_of_getElem? at_i
    · exact List.mem_of_getElem? at_i
  obtain ⟨n, raw, isLine, same, visible⟩ := (Source.mem_read_iff isRead).1 hline
  exact ⟨n, raw, isLine, same, by rwa [same]⟩

end Text

/-- If a text assembles, the addresses of its source map are those of its words.  The lines of the
source map are in increasing order and are the instruction lines of the text, each once; the word at
an address decodes to the instruction on its line, and the address of a label is that of the first
instruction line behind the label.  If a line is at fault, the fault names the number of that line
in the text and what cleaning leaves of it. -/
theorem source_positions_are_right (t : Text) :
    (∀ p, assembleText t = .ok p →
      p.sourceMap.map (·.1) = List.range p.words.size ∧
      (p.sourceMap.map (·.2)).Pairwise (· < ·) ∧
      (∀ k n, (k, n) ∈ p.sourceMap →
        ∃ (number : Nat) (op : Operation) (w : Word) (i : Instruction), n = number ∧
          StatementAt t number (.operation op) ∧ p.words[k]? = some w ∧
          Instruction.decode w = .ok i ∧ p.Means op i) ∧
      (∀ n op, StatementAt t n (.operation op) →
        (p.sourceMap.map (·.2)).count (n : Int) = 1) ∧
      (∀ s ∈ p.symbols, s.kind = .label → ∃ j, StatementAt t j (.label s.name)) ∧
      ∀ j name, StatementAt t j (.label name) → ∃ a : Nat, ⟨name, a, .label⟩ ∈ p.symbols ∧
        (a < p.words.size → ∃ n : Nat, (a, (n : Int)) ∈ p.sourceMap ∧ j < n ∧
          ∀ m op, StatementAt t m (.operation op) → j < m → n ≤ m)) ∧
    ∀ f, assembleText t = .error (.line f) →
      ∃ (n : Nat) (raw : Text), Source.IsLine t n raw ∧ f.line = ⟨n, Source.clean raw⟩ ∧
        f.line.text ≠ [] := by
  refine ⟨fun p h => ?_, fun f h => exists_isLine_of_fault h⟩
  obtain ⟨lines, isRead, assembled⟩ := assembleText_eq_ok_iff.1 h
  refine ⟨p.map_fst_sourceMap, ?_, fun k n => entry_decodes_to_line isRead assembled,
    fun n op => count_line_sourceMap isRead assembled,
    fun s => exists_line_of_label_symbol isRead assembled,
    fun j name => label_leads_to_line isRead assembled⟩
  rw [numbers_of_assembleLines assembled, List.pairwise_map]
  exact pairwise_located (Source.pairwise_read isRead)

/-- A loop behind a comment and a blank line, with both kinds of line end and another blank line
between its instructions. -/
def commentedLoop : Text :=
  Text.ascii "// for ever\r\n\n(LOOP) // top\r\n  @LOOP\n\n0;JMP"

theorem source_positions_are_right_commentedLoop :
    ∃ p, assembleText commentedLoop = .ok p ∧ p.sourceMap = [(0, 4), (1, 6)] ∧
      StatementAt commentedLoop 3 (.label (Text.ascii "LOOP")) ∧
      ∃ a : Nat, ⟨Text.ascii "LOOP", a, .label⟩ ∈ p.symbols ∧
        (a < p.words.size → ∃ n : Nat, (a, (n : Int)) ∈ p.sourceMap ∧ 3 < n ∧
          ∀ m op, StatementAt commentedLoop m (.operation op) → 3 < m → n ≤ m) := by
  have map : (assembleText commentedLoop).map (·.sourceMap) = .ok [(0, 4), (1, 6)] := rfl
  have label : StatementAt commentedLoop 3 (.label (Text.ascii "LOOP")) := by
    refine ⟨Text.ascii "(LOOP) // top\r", ⟨Text.ascii "// for ever\r\n\n",
      Text.ascii "\n  @LOOP\n\n0;JMP", rfl, rfl, .inr ⟨Text.ascii "// for ever\r\n", rfl⟩, ?_,
      .inr ⟨Text.ascii "  @LOOP\n\n0;JMP", rfl⟩⟩, rfl⟩
    decide
  cases assembled : assembleText commentedLoop with
  | ok p =>
    rw [assembled] at map
    obtain ⟨-, -, -, -, -, leads⟩ := (source_positions_are_right commentedLoop).1 p assembled
    exact ⟨p, rfl, Except.ok.inj map, label, leads 3 _ label⟩
  | error fault =>
    rw [assembled] at map
    cases map

end HackMachine
