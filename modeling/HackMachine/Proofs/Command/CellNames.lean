import HackMachine.Command.Input
import HackMachine.Proofs.Assembly.Correctness
import HackMachine.Proofs.Assembly.Literal
import HackMachine.Proofs.Symbol.Listing

/-!
# The names of memory cells

A memory cell is named in two places, which know nothing of each other: on the command line, and as
the operand of an address statement.  The command line reads digits, or looks the name up among the
predefined ones.  The assembler decides by the first byte whether the operand is a number or a name,
has a limit of its own for each, recognises registers by their spelling, and makes up a cell for
a name that it does not know.

The two agree (`cell_names_agree`), up to this last point: the assembler takes any name, and for one
that is not predefined it allocates a cell.  That is seen in the table, which then has one more
entry.  The word alone would not show it, since the first such cell is cell 16, and `R16` is such a
name.

Both are compared with `IsCellName`: digits of that value, or a predefined name.

* `memoryAddress_eq_ok_iff`: what the command line takes as an address.
* `add_symbol_of_predefined`, `size_add_symbol_of_new`: what the assembler makes of a name.
* `loadsCell_iff`: what a program of one line loads without allocating anything.
-/

namespace HackMachine

/-- A text that names cell `n` is a numeral of this value or a predefined name with this address. -/
def IsCellName (name : Text) (n : Nat) : Prop :=
  Text.natural? name = some n ∨ predefinedAddress? name = some n

section CellName

variable {name : Text} {n : Nat}

/-- A name is not a numeral. -/
theorem natural?_of_isName (valid : isName name) : Text.natural? name = none := by
  obtain ⟨b, rest, rfl, noDigit⟩ := Statement.exists_cons_of_isName valid
  rw [Option.eq_none_iff_forall_ne_some]
  intro m numeral
  rw [Text.isDecimal_cons (Text.natural?_eq_some_iff.1 numeral).1] at noDigit
  cases noDigit

/-- What is not a numeral has to be predefined. -/
theorem isCellName_iff_of_none (h : Text.natural? name = none) :
    IsCellName name n ↔ predefinedAddress? name = some n := by
  rw [IsCellName, h]
  exact or_iff_right nofun

/-- A numeral names the cell of its value and no other. -/
theorem isCellName_iff_of_some {value : Nat} (h : Text.natural? name = some value) :
    IsCellName name n ↔ value = n := by
  rw [IsCellName, h, Option.some.injEq]
  refine or_iff_left fun predefined => ?_
  rw [natural?_of_isName (isName_of_predefinedAddress? predefined)] at h
  cases h

end CellName

/-! ## On the command line -/

theorem ofNat_eq_iff {n : Nat} (h : n < UInt16.size) {a : Word} :
    UInt16.ofNat n = a ↔ n = a.toNat := by
  rw [← UInt16.toNat_inj, UInt16.toNat_ofNat', Nat.mod_eq_of_lt h]

/-- The command line takes the names of a cell, and nothing else. -/
theorem memoryAddress_eq_ok_iff {name : Text} {a : Word} :
    memoryAddress name = .ok a ↔ IsCellName name a.toNat := by
  cases numeral : Text.natural? name with
  | some n =>
    rw [isCellName_iff_of_some numeral, memoryAddress, numeral]
    by_cases small : n < UInt16.size
    · simp only [if_pos small, Except.ok.injEq, ofNat_eq_iff small]
    · have fits := a.toNat_lt_size
      simp only [if_neg small, reduceCtorEq, false_iff]
      omega
  | none =>
    rw [isCellName_iff_of_none numeral, memoryAddress, numeral]
    cases predefined : predefinedAddress? name with
    | none => simp
    | some n =>
      have small : n < UInt16.size := Nat.lt_trans (predefinedAddress?_lt predefined) (by decide)
      simp only [Except.ok.injEq, Option.some.injEq, ofNat_eq_iff small]

/-! ## In the assembler -/

namespace Emission

variable {e : Emission} {name : Text}

theorem encode_symbol_of_resolved {found : Resolver.Resolved}
    (h : e.resolver.resolve e.table name = .ok found) :
    e.encode (.address (.symbol name)) =
      ({ e with table := found.table, resolver := found.resolver }, addressWord found.address) := by
  rw [encode, h]

/-- Whatever comes of an operation, the names that it binds stay bound. -/
theorem table_add (e : Emission) (l : Located) : (e.add l).1.table = (e.encode l.op).1.table := by
  rw [add]
  rcases e.encode l.op with ⟨next, _ | _⟩ <;> rfl

variable (fresh : e.table = .initial)
include fresh

theorem lookup?_of_initial :
    e.table.lookup? name = (predefinedAddress? name).map fun n : Nat => ⟨n, .predefined⟩ := by
  rw [fresh, SymbolTable.lookup?_initial]

/-- While only the predefined names are bound, the table decides alone. -/
theorem resolve_of_initial (valid : isName name) :
    e.resolver.resolve e.table name = e.resolver.resolveBound e.table name := by
  refine e.resolver.resolve_eq_resolveBound valid fun n predefined => ?_
  rw [lookup?_of_initial fresh, predefined]
  rfl

/-- A predefined name is emitted as its address, and nothing is allocated. -/
theorem add_symbol_of_predefined {n : Nat} (h : predefinedAddress? name = some n)
    (line : SourceLine) :
    ∃ w, w.toNat = n ∧ e.add ⟨line, .address (.symbol name)⟩ =
      ({ e with code := e.code.push ⟨w, line.number⟩ }, none) := by
  have bound : e.table.lookup? name = some ⟨n, .predefined⟩ := by
    rw [lookup?_of_initial fresh, h]
    rfl
  have resolved : e.resolver.resolve e.table name = .ok ⟨n, e.table, e.resolver⟩ := by
    rw [resolve_of_initial fresh (isName_of_predefinedAddress? h)]
    simp [Resolver.resolveBound, bound]
  have small := predefinedAddress?_lt h
  obtain ⟨w, isWord, toNat⟩ := addressWord_of_le (show n ≤ 32767 by omega)
  have encoded : e.encode (.address (.symbol name)) = (e, .ok w) :=
    (encode_symbol_of_resolved resolved).trans (congrArg (Prod.mk e) isWord)
  exact ⟨w, toNat, by rw [add, encoded]⟩

/-- Any other name is given a cell of its own. -/
theorem size_add_symbol_of_new (valid : isName name) (h : predefinedAddress? name = none)
    (line : SourceLine) : (e.add ⟨line, .address (.symbol name)⟩).1.table.size = 24 := by
  have unbound : e.table.lookup? name = none := by
    rw [lookup?_of_initial fresh, h]
    rfl
  have resolved : e.resolver.resolve e.table name =
      .ok ⟨e.resolver.next, e.table.bind name ⟨e.resolver.next, .memory⟩,
        { e.resolver with allocated := e.resolver.allocated + 1 }⟩ := by
    rw [resolve_of_initial fresh valid, Resolver.resolveBound, unbound]
    exact e.resolver.allocate_of_new unbound
  rw [table_add, encode_symbol_of_resolved resolved]
  show (e.table.bind name ⟨e.resolver.next, .memory⟩).size = 24
  rw [SymbolTable.size_bind unbound, fresh, SymbolTable.size_initial]

end Emission

/-! ## Programs of one line -/

/-- The program of this one line has the one word `a`, and nothing is bound beside the 23 predefined
names when it has been assembled. -/
def LoadsCell (line : SourceLine) (a : Word) : Prop :=
  ∃ left p, Assembler.fresh.assemble [line] = (left, .ok p) ∧ p.words.toList = [a] ∧
    left.table.size = 23

/-- The second pass over a single instruction, before it takes the line. -/
def Emission.ofOne : Emission := start ⟨.initial, 1⟩

section Line

variable {line : SourceLine} {a : Word}

/-- A line that is no statement loads nothing. -/
theorem not_loadsCell_of_error {fault : Statement.Fault}
    (h : Statement.parse line.text = .error fault) : ¬ LoadsCell line a := by
  rintro ⟨left, p, ran, -⟩
  rw [Assembler.fresh.assemble_singleton_of_error line h] at ran
  cases (Prod.mk.inj ran).2

section Operation

variable {op : Operation} (parsed : Statement.parse line.text = .ok (.operation op))
include parsed

/-- If the line is emitted as a word and nothing is allocated for it, this word is what it loads. -/
theorem loadsCell_iff_of_emitted {w : Word}
    (emitted : Emission.ofOne.add ⟨line, op⟩ =
      ({ Emission.ofOne with code := Emission.ofOne.code.push ⟨w, line.number⟩ }, none)) :
    LoadsCell line a ↔ w.toNat = a.toNat := by
  have ran := Assembler.fresh.assemble_singleton_of_operation line parsed
  rw [← Emission.ofOne, emitted] at ran
  rw [UInt16.toNat_inj]
  constructor
  · rintro ⟨left, p, ran', words, -⟩
    obtain ⟨-, same⟩ := Prod.mk.inj (ran.symm.trans ran')
    obtain rfl := Except.ok.inj same
    exact List.singleton_inj.1 words
  · rintro rfl
    exact ⟨_, _, ran, rfl, SymbolTable.size_initial⟩

/-- If the word cannot be made, nothing is loaded. -/
theorem not_loadsCell_of_refused {e : Emission} {fault : LineFault}
    (refused : Emission.ofOne.add ⟨line, op⟩ = (e, some fault)) :
    ¬ LoadsCell line a := by
  rintro ⟨left, p, ran, -⟩
  rw [Assembler.fresh.assemble_singleton_of_operation line parsed, ← Emission.ofOne, refused] at ran
  cases (Prod.mk.inj ran).2

/-- If something is allocated for the line, it loads none of the cells that have names. -/
theorem not_loadsCell_of_size
    (grown : (Emission.ofOne.add ⟨line, op⟩).1.table.size = 24) :
    ¬ LoadsCell line a := by
  rcases added : Emission.ofOne.add ⟨line, op⟩ with ⟨e, _ | fault⟩
  · rintro ⟨left, p, ran, -, size⟩
    rw [added] at grown
    rw [Assembler.fresh.assemble_singleton_of_operation line parsed, ← Emission.ofOne, added] at ran
    obtain ⟨rfl, -⟩ := Prod.mk.inj ran
    rw [grown] at size
    cases size
  · exact not_loadsCell_of_refused parsed added

end Operation

/-- A line with a number loads this number, if it fits. -/
theorem loadsCell_literal_iff {value : Nat}
    (parsed : Statement.parse line.text = .ok (.operation (.address (.literal value))))
    (fits : a.toNat ≤ 32767) : LoadsCell line a ↔ value = a.toNat := by
  by_cases small : value ≤ 32767
  · obtain ⟨w, rfl, emitted⟩ := Emission.add_literal_of_le small .ofOne line
    exact loadsCell_iff_of_emitted parsed emitted
  · have refused := Emission.add_literal_of_lt (Nat.not_le.1 small) .ofOne line
    exact iff_of_false (not_loadsCell_of_refused parsed refused) (by omega)

/-- A line with a name loads the address of this name, if it is predefined. -/
theorem loadsCell_symbol_iff {name : Text}
    (parsed : Statement.parse line.text = .ok (.operation (.address (.symbol name))))
    (valid : isName name) : LoadsCell line a ↔ predefinedAddress? name = some a.toNat := by
  have fresh : Emission.ofOne.table = .initial := rfl
  cases predefined : predefinedAddress? name with
  | some n =>
    obtain ⟨w, rfl, emitted⟩ := Emission.add_symbol_of_predefined fresh predefined line
    rw [Option.some.injEq]
    exact loadsCell_iff_of_emitted parsed emitted
  | none =>
    have grown := Emission.size_add_symbol_of_new fresh valid predefined line
    exact iff_of_false (not_loadsCell_of_size parsed grown) (Option.some_ne_none _).symm

end Line

/-- What names a cell that can be loaded is an operand. -/
theorem IsCellName.exists_operand {name : Text} {n : Nat} (h : IsCellName name n)
    (fits : n ≤ 32767) : ∃ operand, Statement.readOperand name = .ok operand := by
  rcases h with numeral | predefined
  · have small : n < Text.int64Bound := Nat.lt_of_le_of_lt fits (by decide)
    exact ⟨.literal n, Statement.readOperand_eq_literal_iff.2 ⟨numeral, small⟩⟩
  · exact ⟨.symbol name,
      Statement.readOperand_eq_symbol_iff.2 ⟨rfl, isName_of_predefinedAddress? predefined⟩⟩

/-- A program of one line loads the cell that its operand names. -/
theorem loadsCell_iff {number : Int} {name : Text} {a : Word} (fits : a.toNat ≤ 32767) :
    LoadsCell ⟨number, Text.byte '@' :: name⟩ a ↔ IsCellName name a.toNat := by
  cases read : Statement.readOperand name with
  | error fault =>
    have refused : Statement.parse (Text.byte '@' :: name) = .error fault := by
      rw [Statement.parse_address, read]
      rfl
    refine iff_of_false (not_loadsCell_of_error refused) fun named => ?_
    obtain ⟨operand, read'⟩ := named.exists_operand fits
    rw [read] at read'
    cases read'
  | ok operand =>
    have parsed := Statement.parse_eq_address_iff.2 ⟨name, rfl, read⟩
    cases operand with
    | literal value =>
      rw [isCellName_iff_of_some (Statement.readOperand_eq_literal_iff.1 read).1]
      exact loadsCell_literal_iff parsed fits
    | symbol other =>
      obtain ⟨rfl, valid⟩ := Statement.readOperand_eq_symbol_iff.1 read
      rw [isCellName_iff_of_none (natural?_of_isName valid)]
      exact loadsCell_symbol_iff parsed valid

/-- A program lists all symbols that are bound when it is done. -/
theorem Assembler.length_symbols_of_assemble {a left : Assembler} {lines : List SourceLine}
    {p : Program} (ran : a.assemble lines = (left, .ok p)) :
    p.symbols.length = left.table.size := by
  rcases a.assemble_cases lines with
    ⟨_, _, -, ran'⟩ | ⟨_, -, ⟨_, _, -, ran'⟩ | ⟨e, -, ran'⟩⟩ <;>
    obtain ⟨rfl, same⟩ := Prod.mk.inj (ran.symm.trans ran') <;> cases same
  exact SymbolTable.length_symbols e.table

/-- The program itself shows whether anything has been allocated. -/
theorem loadsCell_iff_symbols {line : SourceLine} {a : Word} :
    LoadsCell line a ↔
      ∃ p, assembleLines [line] = .ok p ∧ p.words.toList = [a] ∧ p.symbols.length = 23 := by
  constructor
  · rintro ⟨left, p, ran, words, size⟩
    exact ⟨p, congrArg Prod.snd ran, words, (Assembler.length_symbols_of_assemble ran).trans size⟩
  · rintro ⟨p, assembled, words, length⟩
    have ran : Assembler.fresh.assemble [line] = ((Assembler.fresh.assemble [line]).1, .ok p) :=
      Prod.ext rfl assembled
    exact ⟨_, p, ran, words, (Assembler.length_symbols_of_assemble ran).symm.trans length⟩

/-- For every text and every address that an instruction can load, the command line takes the text
for this address exactly if the assembler does: given the one line with this text behind an at sign,
it makes the one word of this address and allocates nothing.

It makes no difference whether the line is given as it is or in a source text, where comments and
blanks are removed before the line is looked at. -/
theorem cell_names_agree (name : Text) (a : Word) (fits : a.toNat ≤ 32767) :
    (∀ number, memoryAddress name = .ok a ↔ LoadsCell ⟨number, Text.byte '@' :: name⟩ a) ∧
    (∀ t number, Source.read t = .ok [⟨number, Text.byte '@' :: name⟩] →
      (memoryAddress name = .ok a ↔
        ∃ p, assembleText t = .ok p ∧ p.words.toList = [a] ∧ p.symbols.length = 23)) := by
  have agree : ∀ number, memoryAddress name = .ok a ↔
      LoadsCell ⟨number, Text.byte '@' :: name⟩ a := fun number =>
    memoryAddress_eq_ok_iff.trans (loadsCell_iff fits).symm
  refine ⟨agree, fun t number isRead => ?_⟩
  rw [agree number, loadsCell_iff_symbols]
  simp only [assembleText_eq_ok_iff, isRead, Except.ok.injEq, exists_eq_left']

/-- A predefined name, its address with zeros in front of it, what looks like a register and is not,
and the last register in a source text. -/
theorem cell_names_agree_lookalikes :
    LoadsCell ⟨7, Text.byte '@' :: Text.ascii "SCREEN"⟩ 16384 ∧
    LoadsCell ⟨7, Text.byte '@' :: Text.ascii "00000000000000000000000016384"⟩ 16384 ∧
    ¬ LoadsCell ⟨7, Text.byte '@' :: Text.ascii "R16"⟩ 16 ∧
    ∃ p, assembleText (Text.ascii "// the last one\n\t@R15 // no R16\n") = .ok p ∧
      p.words.toList = [15] ∧ p.symbols.length = 23 := by
  have isRead : Source.read (Text.ascii "// the last one\n\t@R15 // no R16\n") =
      .ok [⟨2, Text.byte '@' :: Text.ascii "R15"⟩] := rfl
  refine ⟨?_, ?_, ?_, ?_⟩
  · exact ((cell_names_agree _ 16384 (by decide)).1 7).1 rfl
  · exact ((cell_names_agree _ 16384 (by decide)).1 7).1 rfl
  · exact mt ((cell_names_agree _ 16 (by decide)).1 7).2 (by decide)
  · exact ((cell_names_agree _ 15 (by decide)).2 _ _ isRead).1 rfl

/-- The word alone would not tell them apart: the first name without a cell is given cell 16. -/
example : (assembleLines [⟨7, Text.ascii "@R16"⟩]).toOption.map (·.words) = some #[16] ∧
    (memoryAddress (Text.ascii "R16")).toOption = none := by
  decide

end HackMachine
