import HackMachine.Proofs.Assembly.Labels
import HackMachine.Proofs.Statement
import HackMachine.Proofs.Symbol.Resolver

/-!
# The second pass finds the words

The second pass reads every line once more, and passes over those that are not instructions.  After
some lines its table binds what `bindingIn?` says for these lines, and it has emitted the word of each
instruction line among them (`Describes`).

The words are those of the whole program and not of the lines seen so far: a name that is bound when
its line has been read keeps its address, so what is emitted for it is already final.

The faults of the pass are those of `EncodingFault`, and the pass reports the first
(`encodingFaults`).  All of this is for programs whose first pass has no fault: only then does a label
have a single line, and only then can every line be read.  So the second pass never stops because of a
line that is not a statement (`exists_operation_of_addLine`).
-/

namespace HackMachine

open Meaning

/-- What is wrong with instruction line `i` once all labels are known: a literal that does not fit, a
label that no instruction line follows, a label or a variable whose address does not fit, or fields
that spell no computation. -/
inductive EncodingFault (lines : List SourceLine) (i : Nat) : Fault → Prop where
  | literal {line : SourceLine} {value : Nat} (at_i : lines[i]? = some line)
      (operand : line.operation? = some (.address (.literal value))) (far : 32767 < value) :
      EncodingFault lines i (.addressOutOfRange value)
  | deadLabel {line labelLine : SourceLine} {name : Text} {j : Nat} (at_i : lines[i]? = some line)
      (operand : line.operation? = some (.address (.symbol name)))
      (at_j : lines[j]? = some labelLine) (label : labelLine.label? = some name)
      (last : operations (lines.drop j) = []) : EncodingFault lines i (.deadLabel name)
  | farLabel {line labelLine : SourceLine} {name : Text} {j : Nat} (at_i : lines[i]? = some line)
      (operand : line.operation? = some (.address (.symbol name)))
      (at_j : lines[j]? = some labelLine) (label : labelLine.label? = some name)
      (followed : operations (lines.drop j) ≠ [])
      (far : 32767 < (operations (lines.take j)).length) :
      EncodingFault lines i (.addressOutOfRange (operations (lines.take j)).length)
  | farVariable {line : SourceLine} {name : Text} {k : Nat} (at_i : lines[i]? = some line)
      (operand : line.operation? = some (.address (.symbol name)))
      (used : (variableNames lines).idxOf? name = some k) (far : 32767 < 16 + k) :
      EncodingFault lines i (.addressOutOfRange (16 + k : Nat))
  | computation {line : SourceLine} {dest comp jump : Text} {why : Malformation}
      (at_i : lines[i]? = some line) (fields : line.operation? = some (.compute dest comp jump))
      (unknown : Instruction.ofFields dest comp jump = .error why) :
      EncodingFault lines i (.malformed why)

/-- Only instruction lines have a fault that the second pass finds. -/
theorem EncodingFault.exists_operation {lines : List SourceLine} {i : Nat} {fault : Fault}
    (h : EncodingFault lines i fault) :
    ∃ line op, lines[i]? = some line ∧ line.operation? = some op := by
  cases h with
  | literal at_i operand | deadLabel at_i operand | farLabel at_i operand
  | farVariable at_i operand | computation at_i operand => exact ⟨_, _, at_i, operand⟩

/-- Fields that encode to nothing are reported as one of the three fields. -/
theorem not_isShape_of_ofFields {dest comp jump : Text} {why : Malformation}
    (h : Instruction.ofFields dest comp jump = .error why) : why.isShape = false := by
  unfold Instruction.ofFields at h
  split at h
  · cases h
    rfl
  · split at h
    · cases h
      rfl
    · split at h <;> cases h
      rfl

/-- The second pass reports no repeated label. -/
theorem EncodingFault.toClass_ne {lines : List SourceLine} {i : Nat} {fault : Fault}
    (h : EncodingFault lines i fault) : fault.toClass ≠ .duplicateLabel := by
  cases h <;> exact nofun

/-- The second pass reports nothing that is reported about a text that is no statement. -/
theorem EncodingFault.ne_ofStatement {lines : List SourceLine} {i : Nat} {fault : Fault}
    (h : EncodingFault lines i fault) {t : Text} {other : Statement.Fault}
    (parsed : Statement.parse t = .error other) : fault ≠ .ofStatement other := by
  intro same
  cases other with
  | hugeLiteral digits => cases h <;> cases same
  | malformed why =>
    cases h with
    | computation at_i fields unknown =>
      cases same
      have := Statement.isShape_of_parse parsed
      rw [not_isShape_of_ofFields unknown] at this
      cases this
    | _ => cases same

namespace Emission

/-! ## Line by line -/

theorem addLines_eq_scan (e : Emission) (lines : List SourceLine) :
    e.addLines lines = scan addLine e lines := by
  induction lines generalizing e with
  | nil => rfl
  | cons line lines ih =>
    rw [addLines, scan]
    rcases e.addLine line with ⟨next, _ | fault⟩
    · exact ih next
    · rfl

theorem addLine_of_operation {line : SourceLine} {op : Operation}
    (hop : line.operation? = some op) (e : Emission) : e.addLine line = e.add ⟨line, op⟩ := by
  rw [addLine, SourceLine.operation?_eq_some_iff.1 hop]

/-- A line that is not an instruction but is taken changes nothing. -/
theorem eq_of_addLine {line : SourceLine} {e next : Emission} (noOperation : line.operation? = none)
    (h : e.addLine line = (next, none)) : next = e := by
  unfold addLine at h
  split at h
  · cases h
  · exact (Prod.mk.inj h).1.symm
  · next op parsed => cases noOperation.symm.trans (SourceLine.operation?_eq_some_iff.2 parsed)

/-- If the first pass has no fault, the second stops at an instruction, and not because a line could
not be read. -/
theorem exists_operation_of_addLine {lines : List SourceLine} {i : Nat} {line : SourceLine}
    {e next : Emission} {fault : LineFault} (clean : ∀ i fault, ¬ LayoutFault lines i fault)
    (at_i : lines[i]? = some line) (h : e.addLine line = (next, some fault)) :
    ∃ op, line.operation? = some op ∧ e.add ⟨line, op⟩ = (next, some fault) := by
  unfold addLine at h
  split at h
  · next why parsed => exact absurd parsed (parse_ne_error_of_clean clean at_i why)
  · cases h
  · next op parsed => exact ⟨op, SourceLine.operation?_eq_some_iff.2 parsed, h⟩

/-- What has been emitted has no influence on a word, and stays as it is. -/
theorem encode_eq (e : Emission) (op : Operation) :
    e.encode op =
      Prod.map (fun next => { next with code := e.code }) id
        ((mk e.table e.resolver #[]).encode op) := by
  rcases op with (value | name) | ⟨dest, comp, jump⟩
  · rw [encode, encode, Prod.map, id]
  · rw [encode, encode]
    cases e.resolver.resolve e.table name <;> rfl
  · rw [encode, encode, Prod.map, id]

/-! ## The word of an address -/

/-- An address with a word fits fifteen bits, and the word loads it. -/
theorem addressWord_eq_ok {address : Int} {w : Word} (h : addressWord address = .ok w) :
    ∃ a : Fin addressCount, address = a.val ∧ w = (Instruction.load a).encode := by
  rw [addressWord, Instruction.ofAddress?] at h
  split at h
  · next i hi =>
    split at hi
    · next fits =>
      cases hi
      cases h
      exact ⟨⟨address.toNat, by omega⟩, by simp; omega, rfl⟩
    · cases hi
  · cases h

/-- Fields with a word spell an instruction, and the word encodes it. -/
theorem computeWord_eq_ok {dest comp jump : Text} {w : Word}
    (h : computeWord dest comp jump = .ok w) :
    ∃ i, Instruction.ofFields dest comp jump = .ok i ∧ w = i.encode := by
  rw [computeWord] at h
  split at h
  · next i hi =>
    cases h
    exact ⟨i, hi, rfl⟩
  · cases h

theorem addressWord_eq_error {address : Nat} {fault : Fault}
    (h : addressWord address = .error fault) :
    32767 < address ∧ fault = .addressOutOfRange address := by
  rw [addressWord, Instruction.ofAddress?] at h
  split at h
  · cases h
  · next hi =>
    split at hi
    · cases hi
    · next fits =>
      cases h
      have : ¬ (address : Int) < addressCount := fun lt => fits ⟨by omega, lt⟩
      exact ⟨by simp only [addressCount] at this; omega, rfl⟩

/-! ## Names -/

/-- What the second pass knows of names after some lines of the program. -/
structure Knows (lines done : List SourceLine) (table : SymbolTable) (r : Resolver) : Prop where
  lookup : ∀ name, table.lookup? name = bindingIn? lines done name
  programLength : r.programLength = (operations lines).length
  allocated : r.allocated = (variablesIn lines done).length

section Resolve

variable {lines done : List SourceLine} {table : SymbolTable} {r : Resolver} {line : SourceLine}
  {name : Text}

/-- A line that uses no new variable changes nothing. -/
theorem Knows.concat_of_same (k : Knows lines done table r)
    (same : variablesIn lines (done ++ [line]) = variablesIn lines done) :
    Knows lines (done ++ [line]) table r where
  lookup name := by rw [k.lookup, bindingIn?_congr same]
  programLength := k.programLength
  allocated := by rw [k.allocated, same]

/-- A line without a name as its operand changes nothing. -/
theorem Knows.concat_of_none (k : Knows lines done table r)
    (h : line.operation?.bind (·.name?) = none) : Knows lines (done ++ [line]) table r :=
  k.concat_of_same (variablesIn_concat_of_none h lines done)

/-- The operand of a line is resolved by the table alone. -/
theorem Knows.resolve_eq_resolveBound (k : Knows lines done table r)
    (operand : line.operation? = some (.address (.symbol name))) :
    r.resolve table name = r.resolveBound table name := by
  apply Resolver.resolve_eq_resolveBound
  · exact Statement.isName_of_parse_symbol (SourceLine.operation?_eq_some_iff.1 operand)
  · intro n hn
    rw [k.lookup, bindingIn?_of_predefined hn]

/-- Only a label that no instruction follows cannot be resolved. -/
theorem Knows.resolve_eq_error (k : Knows lines done table r)
    (operand : line.operation? = some (.address (.symbol name))) {fault : Fault}
    (h : r.resolve table name = .error fault) :
    fault = .deadLabel name ∧ ∃ address : Nat,
      bindingIn? lines done name = some ⟨address, .label⟩ ∧
        (operations lines).length ≤ address := by
  rw [k.resolve_eq_resolveBound operand, Resolver.resolveBound, k.programLength] at h
  cases hb : table.lookup? name with
  | none =>
    simp only [hb, r.allocate_of_new hb] at h
    cases h
  | some b =>
    simp only [hb] at h
    rw [k.lookup] at hb
    split at h
    · next dead =>
      refine ⟨(Except.error.inj h).symm, ?_⟩
      rcases bindingIn?_cases hb with ⟨a, -, rfl⟩ | ⟨a, -, -, rfl⟩ | ⟨i, -, -, rfl⟩
      · cases dead.1
      · exact ⟨a, hb, Int.ofNat_le.1 dead.2⟩
      · cases dead.1
    · cases h

/-- A name that is resolved has the address that it is bound to once its line has been seen. -/
theorem Knows.resolve_eq_ok (k : Knows lines done table r)
    (operand : line.operation? = some (.address (.symbol name))) {found : Resolver.Resolved}
    (h : r.resolve table name = .ok found) :
    (∃ kind, bindingIn? lines (done ++ [line]) name = some ⟨found.address, kind⟩ ∧
        ¬ (kind = .label ∧ (operations lines).length ≤ found.address)) ∧
      Knows lines (done ++ [line]) found.table found.resolver := by
  rw [k.resolve_eq_resolveBound operand, Resolver.resolveBound] at h
  cases hb : table.lookup? name with
  | some b =>
    simp only [hb] at h
    rw [k.lookup] at hb
    split at h
    · cases h
    · next live =>
      cases h
      have same := variablesIn_concat_of_bound operand (by rw [hb]; simp)
      refine ⟨⟨b.kind, ?_, k.programLength ▸ live⟩, k.concat_of_same same⟩
      rw [bindingIn?_congr same, hb]
  | none =>
    simp only [hb, r.allocate_of_new hb] at h
    cases h
    rw [k.lookup] at hb
    have new := bindingIn?_concat_of_new operand hb
    refine ⟨⟨.memory, ?_, by simp⟩, fun other => ?_, k.programLength, ?_⟩
    · rw [new, if_pos rfl, Resolver.next, k.allocated]
    · rw [new, SymbolTable.lookup?_bind, Resolver.next, k.allocated, k.lookup]
    · rw [variablesIn_concat_of_new operand hb, List.length_append, ← k.allocated]
      rfl

end Resolve

/-! ## Words -/

/-- What the second pass has after some lines: the names, and the words of the instruction lines. -/
structure Describes (lines done : List SourceLine) (e : Emission) : Prop where
  knows : Knows lines done e.table e.resolver
  code : List.Forall₂ (fun (l : Located) (c : Emitted) =>
    (∃ i, Means lines l.op i ∧ c.word = i.encode) ∧ c.line = l.line.number)
    (located done) e.code.toList

theorem add_eq_none {e next : Emission} {l : Located} (h : e.add l = (next, none)) :
    ∃ e' w, e.encode l.op = (e', .ok w) ∧
      next = { e' with code := e'.code.push ⟨w, l.line.number⟩ } := by
  unfold add at h
  split at h
  · cases h
  · next e' w hw => exact ⟨e', w, hw, (Prod.mk.inj h).1.symm⟩

theorem add_eq_some {e next : Emission} {l : Located} {fault : LineFault}
    (h : e.add l = (next, some fault)) :
    e.encode l.op = (next, .error fault.fault) ∧ fault.line = l.line := by
  unfold add at h
  split at h
  · next e' f hf =>
    cases h
    exact ⟨hf, rfl⟩
  · cases h

section Encode

variable {lines done : List SourceLine} {e next : Emission} {line : SourceLine} {op : Operation}

/-- Whatever comes of an operation, the names are known up to and including its line.  A name that
was bound for it stays bound, also if its address turns out not to fit. -/
theorem Knows.encode (k : Knows lines done e.table e.resolver) (hop : line.operation? = some op)
    {result : Except Fault Word} (h : e.encode op = (next, result)) :
    Knows lines (done ++ [line]) next.table next.resolver := by
  match op, hop, h with
  | .address (.literal value), hop, h =>
    obtain rfl : e = next := (Prod.mk.inj h).1
    exact k.concat_of_none (by rw [hop]; rfl)
  | .address (.symbol name), hop, h =>
    rw [Emission.encode] at h
    split at h
    · next fault failed =>
      -- a label that no instruction follows is bound, so it is no new variable
      obtain rfl : e = next := (Prod.mk.inj h).1
      obtain ⟨-, address, bound, -⟩ := k.resolve_eq_error hop failed
      exact k.concat_of_same (variablesIn_concat_of_bound hop (by rw [bound]; simp))
    · next found hfound =>
      obtain ⟨rfl, -⟩ := Prod.mk.inj h
      exact (k.resolve_eq_ok hop hfound).2
  | .compute dest comp jump, hop, h =>
    obtain rfl : e = next := (Prod.mk.inj h).1
    exact k.concat_of_none (by rw [hop]; rfl)

/-- Nothing is emitted before the word is known. -/
theorem code_of_encode {result : Except Fault Word} (h : e.encode op = (next, result)) :
    next.code = e.code := by
  match op, h with
  | .address (.literal value), h | .compute dest comp jump, h =>
    obtain rfl : e = next := (Prod.mk.inj h).1
    rfl
  | .address (.symbol name), h =>
    rw [encode] at h
    split at h <;> obtain ⟨rfl, -⟩ := Prod.mk.inj h <;> rfl

/-- A name with a word is bound to the address that the word loads, and is not a label at the very
end. -/
theorem Knows.encode_symbol_eq_ok (k : Knows lines done e.table e.resolver) {name : Text}
    (first : done ++ [line] <+: lines)
    (operand : line.operation? = some (.address (.symbol name))) {w : Word}
    (h : e.encode (.address (.symbol name)) = (next, .ok w)) :
    ∃ (a : Fin addressCount) (kind : SymbolKind), w = (Instruction.load a).encode ∧
      binding? lines name = some ⟨a.val, kind⟩ ∧
      ¬ (kind = .label ∧ (operations lines).length ≤ a.val) := by
  rw [Emission.encode] at h
  split at h
  · cases h
  · next found hfound =>
    obtain ⟨⟨kind, hb, live⟩, -⟩ := k.resolve_eq_ok operand hfound
    obtain ⟨a, same, isLoad⟩ := addressWord_eq_ok (Prod.mk.inj h).2
    have bound := binding?_of_part first hb
    rw [same] at bound live
    exact ⟨a, kind, isLoad, bound, by exact_mod_cast live⟩

/-- A word that is found encodes the instruction of the operation in the whole program. -/
theorem Knows.encode_eq_ok (k : Knows lines done e.table e.resolver)
    (first : done ++ [line] <+: lines) (hop : line.operation? = some op) {w : Word}
    (h : e.encode op = (next, .ok w)) :
    ∃ i, Means lines op i ∧ w = i.encode := by
  match op, hop, h with
  | .address (.literal value), hop, h =>
    obtain ⟨a, same, isLoad⟩ := addressWord_eq_ok (Prod.mk.inj h).2
    exact ⟨.load a, (Int.ofNat_inj.1 same).symm, isLoad⟩
  | .address (.symbol name), hop, h =>
    obtain ⟨a, kind, isLoad, bound, -⟩ := k.encode_symbol_eq_ok first hop h
    exact ⟨.load a, ⟨kind, bound⟩, isLoad⟩
  | .compute dest comp jump, hop, h =>
    obtain ⟨i, fields, isWord⟩ := computeWord_eq_ok (Prod.mk.inj h).2
    exact ⟨i, fields, isWord⟩

/-- One line keeps the description. -/
theorem Describes.addLine (d : Describes lines done e) (first : done ++ [line] <+: lines)
    (h : e.addLine line = (next, none)) : Describes lines (done ++ [line]) next := by
  cases hop : line.operation? with
  | none =>
    obtain rfl := eq_of_addLine hop h
    refine ⟨d.knows.concat_of_none (by rw [hop]; rfl), ?_⟩
    have nothing : located [line] = [] := by simp [located, hop]
    rw [located_append, nothing, List.append_nil]
    exact d.code
  | some op =>
    rw [addLine_of_operation hop] at h
    obtain ⟨e', w, hw, rfl⟩ := add_eq_none h
    have means := d.knows.encode_eq_ok first hop hw
    have knows := d.knows.encode hop hw
    refine ⟨knows, ?_⟩
    have one : located [line] = [⟨line, op⟩] := by simp [located, hop]
    rw [located_append, one, Array.toList_push, code_of_encode hw]
    exact List.rel_append d.code (.cons ⟨means, rfl⟩ .nil)

end Encode

/-- The second pass starts with what the first pass has found. -/
theorem describes_start {lines : List SourceLine} {layout : Layout}
    (d : layout.Describes lines) : Describes lines [] (start layout) where
  knows := ⟨d.table, by simp [start, d.count], rfl⟩
  code := .nil

/-- A second pass that has come through a first part of the program without a fault has found the
word of every instruction line of that part. -/
theorem describes_of_scan {lines part : List SourceLine} {layout : Layout}
    (d : layout.Describes lines) (first : part <+: lines) {e : Emission}
    (h : scan addLine (start layout) part = (e, none)) : Describes lines part e := by
  refine scan_invariant (fun done e => done <+: lines → Describes lines done e)
    (fun _ => describes_start d) ?_ h first
  intro done line e₁ e₂ ih hline first
  exact (ih ((List.prefix_append done [line]).trans first)).addLine first hline

/-! ## Faults -/

theorem take_concat {lines : List SourceLine} {i : Nat} {line : SourceLine}
    (at_i : lines[i]? = some line) : lines.take i ++ [line] = lines.take (i + 1) := by
  obtain ⟨hi, rfl⟩ := List.getElem?_eq_some_iff.1 at_i
  exact List.take_append_getElem hi

/-- The lines before line `i` and line `i` itself come first. -/
theorem take_concat_part {lines : List SourceLine} {i : Nat} {line : SourceLine}
    (at_i : lines[i]? = some line) : lines.take i ++ [line] <+: lines := by
  rw [take_concat at_i]
  exact List.take_prefix (i + 1) lines

/-- A label that no instruction line follows is one whose address is the length of the program. -/
theorem operations_drop_eq_nil_iff (lines : List SourceLine) (j : Nat) :
    operations (lines.drop j) = [] ↔
      (operations lines).length ≤ (operations (lines.take j)).length := by
  have split : (operations lines).length =
      (operations (lines.take j)).length + (operations (lines.drop j)).length := by
    rw [← List.length_append, ← operations_append, List.take_append_drop]
  rw [← List.length_eq_zero_iff]
  omega

section Faults

variable {lines done : List SourceLine} {e next : Emission} {i : Nat} {line : SourceLine}
  {op : Operation}

/-- A bound name whose address does not fit is a label or a variable. -/
theorem encodingFault_of_far {name : Text} {kind : SymbolKind} {address : Nat}
    (at_i : lines[i]? = some line) (operand : line.operation? = some (.address (.symbol name)))
    (bound : binding? lines name = some ⟨address, kind⟩)
    (live : ¬ (kind = .label ∧ (operations lines).length ≤ address)) (far : 32767 < address) :
    EncodingFault lines i (.addressOutOfRange address) := by
  rcases bindingIn?_cases bound with ⟨a, hp, same⟩ | ⟨a, -, hl, same⟩ | ⟨k, -, used, same⟩
  · obtain ⟨ha, -⟩ := Binding.mk.inj same
    have := predefinedAddress?_lt hp
    omega
  · obtain ⟨ha, hk⟩ := Binding.mk.inj same
    obtain rfl : address = a := Int.ofNat_inj.1 ha
    obtain ⟨j, labelLine, at_j, label, -, rfl⟩ := labelAddress?_eq_some_iff.1 hl
    refine .farLabel at_i operand at_j label ?_ far
    rw [Ne, operations_drop_eq_nil_iff]
    exact fun last => live ⟨hk, last⟩
  · obtain ⟨ha, -⟩ := Binding.mk.inj same
    obtain rfl : address = firstVariable + k := Int.ofNat_inj.1 ha
    exact .farVariable at_i operand used far

/-- An operation without a word is at fault. -/
theorem Knows.encode_eq_error (k : Knows lines done e.table e.resolver)
    (first : done ++ [line] <+: lines) (at_i : lines[i]? = some line)
    (hop : line.operation? = some op) {fault : Fault} (h : e.encode op = (next, .error fault)) :
    EncodingFault lines i fault := by
  match op, hop, h with
  | .address (.literal value), hop, h =>
    obtain ⟨far, rfl⟩ := addressWord_eq_error (Prod.mk.inj h).2
    exact .literal at_i hop far
  | .address (.symbol name), hop, h =>
    rw [Emission.encode] at h
    split at h
    · next failed =>
      cases h
      obtain ⟨rfl, a, hb, last⟩ := k.resolve_eq_error hop failed
      rcases bindingIn?_cases hb with ⟨_, -, other⟩ | ⟨a', -, hl, same⟩ | ⟨_, -, -, other⟩
      · cases other
      · obtain rfl : a = a' := Int.ofNat_inj.1 (Binding.mk.inj same).1
        obtain ⟨j, labelLine, at_j, label, -, rfl⟩ := labelAddress?_eq_some_iff.1 hl
        exact .deadLabel at_i hop at_j label ((operations_drop_eq_nil_iff lines j).2 last)
      · cases other
    · next found hfound =>
      obtain ⟨⟨kind, hb, live⟩, -⟩ := k.resolve_eq_ok hop hfound
      have bound := binding?_of_part first hb
      -- every address is a natural number
      obtain ⟨address, same⟩ : ∃ address : Nat, found.address = address := by
        rcases bindingIn?_cases hb with ⟨a, -, same⟩ | ⟨a, -, -, same⟩ | ⟨a, -, -, same⟩ <;>
          exact ⟨_, (Binding.mk.inj same).1⟩
      rw [same] at h bound live
      obtain ⟨far, rfl⟩ := addressWord_eq_error (Prod.mk.inj h).2
      exact encodingFault_of_far at_i hop bound (by exact_mod_cast live) far
  | .compute dest comp jump, hop, h =>
    have herror := (Prod.mk.inj h).2
    rw [computeWord] at herror
    split at herror
    · cases herror
    · next why unknown =>
      cases herror
      exact .computation at_i hop unknown

/-- The address of a name with a word fits, and it is not that of a label at the very end. -/
theorem Knows.lt_of_encode_symbol (k : Knows lines done e.table e.resolver)
    (first : done ++ [line] <+: lines) (hop : line.operation? = some op) {w : Word}
    (h : e.encode op = (next, .ok w)) {name : Text}
    (operand : line.operation? = some (.address (.symbol name))) {address : Nat}
    {kind : SymbolKind} (bound : binding? lines name = some ⟨address, kind⟩) :
    ¬ (kind = .label ∧ (operations lines).length ≤ address) ∧ address < 32768 := by
  obtain rfl := Option.some.inj (hop.symm.trans operand)
  obtain ⟨a, kind', -, bound', live⟩ := k.encode_symbol_eq_ok first operand h
  obtain ⟨ha, rfl⟩ := Binding.mk.inj (Option.some.inj (bound.symm.trans bound'))
  obtain rfl : address = a.val := Int.ofNat_inj.1 ha
  exact ⟨live, a.isLt⟩

/-- An operation with a word is not at fault. -/
theorem Knows.not_encodingFault (k : Knows lines done e.table e.resolver)
    (clean : ∀ i fault, ¬ LayoutFault lines i fault)
    (first : done ++ [line] <+: lines) (at_i : lines[i]? = some line)
    (hop : line.operation? = some op) {w : Word} (h : e.encode op = (next, .ok w))
    (fault : Fault) : ¬ EncodingFault lines i fault := by
  intro bad
  cases bad with
  | literal at_i' operand far =>
    obtain rfl := Option.some.inj (at_i.symm.trans at_i')
    obtain rfl := Option.some.inj (hop.symm.trans operand)
    obtain ⟨a, same, -⟩ := addressWord_eq_ok (Prod.mk.inj h).2
    have fits : a.val < 32768 := a.isLt
    omega
  | @deadLabel _ labelLine name j at_i' operand at_j label last =>
    obtain rfl := Option.some.inj (at_i.symm.trans at_i')
    obtain ⟨new, defined⟩ := labelAddress?_of_clean clean at_j label
    have bound := bindingIn?_of_label new defined lines
    refine (k.lt_of_encode_symbol first hop h operand bound).1 ⟨rfl, ?_⟩
    exact (operations_drop_eq_nil_iff lines j).1 last
  | @farLabel _ labelLine name j at_i' operand at_j label followed far =>
    obtain rfl := Option.some.inj (at_i.symm.trans at_i')
    obtain ⟨new, defined⟩ := labelAddress?_of_clean clean at_j label
    have bound := bindingIn?_of_label new defined lines
    have fits := (k.lt_of_encode_symbol first hop h operand bound).2
    omega
  | @farVariable _ name n at_i' operand used far =>
    obtain rfl := Option.some.inj (at_i.symm.trans at_i')
    have fits := (k.lt_of_encode_symbol first hop h operand (bindingIn?_of_idxOf? used)).2
    simp only [firstVariable] at fits
    omega
  | computation at_i' fields unknown =>
    obtain rfl := Option.some.inj (at_i.symm.trans at_i')
    obtain rfl := Option.some.inj (hop.symm.trans fields)
    have hw := (Prod.mk.inj h).2
    rw [computeWord, unknown] at hw
    cases hw

end Faults

/-- The faults of the second pass, place by place. -/
theorem encodingFaults {lines : List SourceLine} {layout : Layout} (d : layout.Describes lines)
    (clean : ∀ i fault, ¬ LayoutFault lines i fault) :
    ScanFaults addLine (start layout) lines
      (fun done e => done <+: lines → Describes lines done e)
      fun i fault => lines[i]? = some fault.line ∧ EncodingFault lines i fault.fault where
  start _ := describes_start d
  keep done line e next ih h first :=
    (ih ((List.prefix_append done [line]).trans first)).addLine first h
  inside i fault h := ⟨fault.line, h.1⟩
  sound i line e next at_i ih h fault bad := by
    have first := List.take_prefix i lines
    have knows := (ih first).knows
    obtain ⟨line', op, at_i', hop⟩ := bad.2.exists_operation
    obtain rfl := Option.some.inj (at_i.symm.trans at_i')
    rw [addLine_of_operation hop] at h
    obtain ⟨e', w, hw, -⟩ := add_eq_none h
    exact knows.not_encodingFault clean (take_concat_part at_i) at_i hop hw fault.fault bad.2
  complete i line e next fault at_i ih h := by
    have first := List.take_prefix i lines
    have knows := (ih first).knows
    obtain ⟨op, hop, added⟩ := exists_operation_of_addLine clean at_i h
    obtain ⟨hfault, same⟩ := add_eq_some added
    exact ⟨same ▸ at_i, knows.encode_eq_error (take_concat_part at_i) at_i hop hfault⟩

end Emission
end HackMachine
