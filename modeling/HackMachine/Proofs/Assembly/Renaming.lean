import HackMachine.Proofs.Assembly.Correctness

/-!
# Names do not matter

A *renaming* of symbols leaves the predefined names alone and takes every other name to a name that is
not predefined, different names to different ones.  It acts on a program line by line, in the labels
and in the operands that are names.

`assembleLines_rename` says that a program and the renamed program have the same outcome.  If one
assembles, so does the other, to the same words from the same lines and with the same symbols under
their new names; and if one does not, the other fails at the same line and for the same reason.

The two runs are compared step by step:

* `parse_text`: reading a renamed line gives the renamed statement.
* `Matches`: what the symbol tables of the two runs have in common.  A new binding keeps it
  (`Matches.bind`), and names are resolved alike (`Matches.resolve`).
* `LayoutMatches.addLine`, `EmissionMatches.addLine`: one line in each of the passes.
-/

namespace HackMachine

/-- A change of names that keeps different names apart and leaves the predefined ones alone. -/
structure Renaming where
  map : Text → Text
  injective : ∀ m n, isName m → isName n → map m = map n → m = n
  predefined : ∀ n address, predefinedAddress? n = some address → map n = n
  /-- A name that is not predefined stays a name, and does not become a predefined one. -/
  other : ∀ n, isName n → predefinedAddress? n = none →
    isName (map n) ∧ predefinedAddress? (map n) = none

namespace Renaming

instance : CoeFun Renaming fun _ => Text → Text := ⟨map⟩

variable (ρ : Renaming)

/-! ## What is renamed -/

/-- A line with the name it defines or uses renamed.  Any other text stays as it is. -/
def text : Text → Text
  | [] => []
  | b :: rest =>
    if b = Text.byte '@' ∧ isName rest then b :: ρ rest
    else if b = Text.byte '(' ∧ rest.getLast? = some (Text.byte ')') ∧ isName rest.dropLast then
      b :: (ρ rest.dropLast ++ [Text.byte ')'])
    else b :: rest

def line (line : SourceLine) : SourceLine := { line with text := ρ.text line.text }

def operation : Operation → Operation
  | .address (.symbol name) => .address (.symbol (ρ name))
  | op => op

def statement : Statement → Statement
  | .label name => .label (ρ name)
  | .operation op => .operation (ρ.operation op)

def symbol (s : Symbol) : Symbol := { s with name := ρ s.name }

/-- What is reported, with the names in it renamed. -/
def fault : Fault → Fault
  | .undefinedSymbol name => .undefinedSymbol (ρ name)
  | .deadLabel name => .deadLabel (ρ name)
  | .duplicateLabel name earlier => .duplicateLabel (ρ name) earlier
  | other => other

def lineFault (f : LineFault) : LineFault := ⟨ρ.line f.line, ρ.fault f.fault⟩

/-! ## Names -/

section Names

variable {n : Text}

theorem predefinedAddress?_map (valid : isName n) :
    predefinedAddress? (ρ n) = predefinedAddress? n := by
  cases h : predefinedAddress? n with
  | none => exact (ρ.other n valid h).2
  | some address => rw [ρ.predefined n address h, h]

theorem isName_map (valid : isName n) : isName (ρ n) := by
  cases h : predefinedAddress? n with
  | none => exact (ρ.other n valid h).1
  | some address =>
    rw [ρ.predefined n address h]
    exact valid

/-- A register keeps its name, and no other name becomes that of a register. -/
theorem registerNumber?_map (valid : isName n) : registerNumber? (ρ n) = registerNumber? n := by
  cases h : registerNumber? n with
  | some k => rw [ρ.predefined n k (predefinedAddress?_of_registerNumber? valid h), h]
  | none =>
    cases h' : registerNumber? (ρ n) with
    | none => rfl
    | some k =>
      have taken := predefinedAddress?_of_registerNumber? (ρ.isName_map valid) h'
      rw [ρ.predefinedAddress?_map valid] at taken
      rw [ρ.predefined n k taken, h] at h'
      cases h'

end Names

/-! ## Reading a renamed line -/

theorem text_symbol {name : Text} (valid : isName name) :
    ρ.text (Text.byte '@' :: name) = Text.byte '@' :: ρ name := by
  rw [text, if_pos ⟨rfl, valid⟩]

theorem text_label {name : Text} (valid : isName name) :
    ρ.text (Text.byte '(' :: (name ++ [Text.byte ')'])) =
      Text.byte '(' :: (ρ name ++ [Text.byte ')']) := by
  have shape : Text.byte '(' = Text.byte '(' ∧
      (name ++ [Text.byte ')']).getLast? = some (Text.byte ')') ∧
      isName (name ++ [Text.byte ')']).dropLast := by
    rw [List.getLast?_concat, List.dropLast_concat]
    exact ⟨rfl, rfl, valid⟩
  rw [text, if_neg (fun at_sign => absurd at_sign.1 (by decide)), if_pos shape,
    List.dropLast_concat]

/-- A text that is neither a label nor a name used as an operand stays as it is. -/
theorem text_eq_self {t : Text} (noLabel : ∀ name, Statement.parse t ≠ .ok (.label name))
    (noSymbol : ∀ name, Statement.parse t ≠ .ok (.operation (.address (.symbol name)))) :
    ρ.text t = t := by
  cases t with
  | nil => rfl
  | cons b rest =>
    have noOperand : ¬ (b = Text.byte '@' ∧ isName rest) := by
      rintro ⟨rfl, valid⟩
      exact noSymbol rest (Statement.parse_eq_symbol_iff.2 ⟨rfl, valid⟩)
    have noDefinition : ¬ (b = Text.byte '(' ∧ rest.getLast? = some (Text.byte ')') ∧
        isName rest.dropLast) := by
      rintro ⟨rfl, last, valid⟩
      obtain ⟨name, rfl⟩ := List.getLast?_eq_some_iff.1 last
      rw [List.dropLast_concat] at valid
      exact noLabel name (Statement.parse_eq_label_iff.2 ⟨rfl, valid⟩)
    rw [text, if_neg noOperand, if_neg noDefinition]

/-- Reading a renamed text gives the renamed statement, or the same fault. -/
theorem parse_text (t : Text) :
    Statement.parse (ρ.text t) = (Statement.parse t).map ρ.statement := by
  -- only in the first two cases is there anything to rename
  match parsed : Statement.parse t with
  | .ok (.label name) =>
    obtain ⟨rfl, valid⟩ := Statement.parse_eq_label_iff.1 parsed
    rw [ρ.text_label valid]
    exact Statement.parse_eq_label_iff.2 ⟨rfl, ρ.isName_map valid⟩
  | .ok (.operation (.address (.symbol name))) =>
    obtain ⟨rfl, valid⟩ := Statement.parse_eq_symbol_iff.1 parsed
    rw [ρ.text_symbol valid]
    exact Statement.parse_eq_symbol_iff.2 ⟨rfl, ρ.isName_map valid⟩
  | .error _ | .ok (.operation (.address (.literal _))) | .ok (.operation (.compute _ _ _)) =>
    rw [ρ.text_eq_self (by rw [parsed]; exact nofun) (by rw [parsed]; exact nofun), parsed]
    rfl

/-! ## The symbol tables of two runs -/

/-- The second table binds the new names as the first binds the old ones, and no others. -/
structure Matches (table table' : SymbolTable) : Prop where
  lookup : ∀ name, isName name → table'.lookup? (ρ name) = table.lookup? name
  valid : ∀ name binding, table.lookup? name = some binding → isName name
  image : ∀ name' binding, table'.lookup? name' = some binding →
    ∃ name, isName name ∧ ρ name = name'

theorem matches_initial : ρ.Matches .initial .initial where
  lookup name valid := by
    rw [SymbolTable.lookup?_initial, SymbolTable.lookup?_initial, ρ.predefinedAddress?_map valid]
  valid name binding h := by
    rw [SymbolTable.lookup?_initial] at h
    obtain ⟨address, found, -⟩ := Option.map_eq_some_iff.1 h
    exact isName_of_predefinedAddress? found
  image name binding h := by
    rw [SymbolTable.lookup?_initial] at h
    obtain ⟨address, found, -⟩ := Option.map_eq_some_iff.1 h
    exact ⟨name, isName_of_predefinedAddress? found, ρ.predefined name address found⟩

namespace Matches

variable {ρ} {table table' : SymbolTable}

/-- Binding a name in one run and its new name in the other keeps the tables alike. -/
theorem bind (m : ρ.Matches table table') {name : Text} (hname : isName name)
    (binding : Binding) :
    ρ.Matches (table.bind name binding) (table'.bind (ρ name) binding) where
  lookup other valid := by
    rw [SymbolTable.lookup?_bind, SymbolTable.lookup?_bind]
    by_cases same : name = other
    · rw [same, if_pos rfl, if_pos rfl]
    · have apart : ρ name ≠ ρ other := fun h => same (ρ.injective name other hname valid h)
      rw [if_neg same, if_neg apart, m.lookup other valid]
  valid other b h := by
    rw [SymbolTable.lookup?_bind] at h
    by_cases same : name = other
    · rw [← same]
      exact hname
    · rw [if_neg same] at h
      exact m.valid other b h
  image other' b h := by
    rw [SymbolTable.lookup?_bind] at h
    by_cases same : ρ name = other'
    · exact ⟨name, hname, same⟩
    · rw [if_neg same] at h
      exact m.image other' b h

/-- A name and its new name are both without an address, or both have the same. -/
theorem resolve (m : ρ.Matches table table') {name : Text} (valid : isName name) (r : Resolver) :
    (r.resolve table name = .error (.deadLabel name) ∧
        r.resolve table' (ρ name) = .error (.deadLabel (ρ name))) ∨
      ∃ address next next' resolver, r.resolve table name = .ok ⟨address, next, resolver⟩ ∧
        r.resolve table' (ρ name) = .ok ⟨address, next', resolver⟩ ∧ ρ.Matches next next' := by
  have spelling := ρ.registerNumber?_map valid
  have binding := m.lookup name valid
  cases spelled : registerNumber? name with
  | some n =>
    exact .inr ⟨n, table, table', r, r.resolve_of_register spelled,
      r.resolve_of_register (spelling.trans spelled), m⟩
  | none =>
    have spelled' := spelling.trans spelled
    cases found : table.lookup? name with
    | none =>
      exact .inr ⟨_, _, _, _, r.resolve_of_new spelled found,
        r.resolve_of_new spelled' (binding.trans found), m.bind valid _⟩
    | some bound =>
      rw [r.resolve_of_bound spelled found, r.resolve_of_bound spelled' (binding.trans found)]
      by_cases dead : bound.kind = .label ∧ r.programLength ≤ bound.address
      · exact .inl ⟨if_pos dead, if_pos dead⟩
      · exact .inr ⟨bound.address, table, table', r, if_neg dead, if_neg dead, m⟩

/-- The symbols of the second table are those of the first under their new names. -/
theorem symbols_perm (m : ρ.Matches table table') :
    table'.symbols.Perm (table.symbols.map ρ.symbol) := by
  have valid : ∀ s ∈ table.symbols, isName s.name := by
    intro s hs
    exact m.valid s.name _ (SymbolTable.mem_symbols_iff.1 hs)
  have distinct : (table.symbols.map ρ.symbol).Nodup := by
    refine List.Nodup.map_on ?_ (List.Nodup.of_map _ table.nodup_names_symbols)
    rintro ⟨name, address, kind⟩ hs ⟨other, _, _⟩ ht same
    obtain ⟨names, rfl, rfl⟩ := Symbol.mk.inj same
    rw [ρ.injective name other (valid _ hs) (valid _ ht) names]
  refine (List.perm_ext_iff_of_nodup (List.Nodup.of_map _ table'.nodup_names_symbols) distinct).2 ?_
  intro s'
  rw [SymbolTable.mem_symbols_iff, List.mem_map]
  constructor
  · intro h
    obtain ⟨name, hname, renamed⟩ := m.image s'.name _ h
    rw [← renamed, m.lookup name hname] at h
    refine ⟨⟨name, s'.address, s'.kind⟩, SymbolTable.mem_symbols_iff.2 h, ?_⟩
    rw [symbol, renamed]
  · rintro ⟨s, hs, rfl⟩
    rw [symbol, m.lookup s.name (valid s hs)]
    exact SymbolTable.mem_symbols_iff.1 hs

end Matches

/-! ## The first pass -/

/-- No name occurs in what is reported about a line that is no statement. -/
theorem fault_ofStatement (fault : Statement.Fault) :
    ρ.fault (.ofStatement fault) = .ofStatement fault := by
  cases fault <;> rfl

/-- What the first passes of two runs have in common. -/
structure LayoutMatches (layout layout' : Layout) : Prop where
  table : ρ.Matches layout.table layout'.table
  count : layout'.count = layout.count

/-- One line is taken by both or fails in both. -/
theorem LayoutMatches.addLine {ρ : Renaming} (layout layout' : Layout) (line : SourceLine)
    (next : Layout) (outcome : Option LineFault) (m : ρ.LayoutMatches layout layout')
    (h : layout.addLine line = (next, outcome)) :
    ∃ next', layout'.addLine (ρ.line line) = (next', outcome.map ρ.lineFault) ∧
      ρ.LayoutMatches next next' := by
  have read : Statement.parse (ρ.line line).text =
      (Statement.parse line.text).map ρ.statement := ρ.parse_text line.text
  unfold Layout.addLine at h ⊢
  rw [read]
  cases parsed : Statement.parse line.text with
  | error fault =>
    rw [parsed] at h
    obtain ⟨rfl, rfl⟩ := Prod.mk.inj h
    refine ⟨layout', ?_, m⟩
    simp only [Except.map, Option.map_some, Renaming.lineFault, fault_ofStatement]
  | ok statement =>
    rw [parsed] at h
    cases statement with
    | operation op =>
      obtain ⟨rfl, rfl⟩ := Prod.mk.inj h
      exact ⟨_, rfl, m.table, congrArg (· + 1) m.count⟩
    | label name =>
      have valid := (Statement.parse_eq_label_iff.1 parsed).2
      have same := m.table.lookup name valid
      simp only [Except.map, Renaming.statement, SymbolTable.define, same, m.count] at h ⊢
      cases found : layout.table.lookup? name with
      | none =>
        rw [found] at h
        obtain ⟨rfl, rfl⟩ := Prod.mk.inj h
        exact ⟨_, rfl, m.table.bind valid _, rfl⟩
      | some earlier =>
        rw [found] at h
        obtain ⟨rfl, rfl⟩ := Prod.mk.inj h
        exact ⟨layout', rfl, m⟩

/-- The first passes over a program and the renamed program end alike. -/
theorem addLines_rename {lines : List SourceLine} {layout : Layout} {outcome : Option LineFault}
    (h : Layout.start.addLines lines = (layout, outcome)) :
    ∃ layout', Layout.start.addLines (lines.map ρ.line) = (layout', outcome.map ρ.lineFault) ∧
      ρ.LayoutMatches layout layout' := by
  rw [Layout.addLines_eq_scan] at h ⊢
  exact scan_related LayoutMatches.addLine ⟨ρ.matches_initial, rfl⟩ h

/-! ## The second pass -/

/-- What the second passes of two runs have in common. -/
structure EmissionMatches (e e' : Emission) : Prop where
  table : ρ.Matches e.table e'.table
  resolver : e'.resolver = e.resolver
  code : e'.code = e.code

theorem LayoutMatches.start {ρ : Renaming} {layout layout' : Layout}
    (m : ρ.LayoutMatches layout layout') :
    ρ.EmissionMatches (Emission.start layout) (Emission.start layout') where
  table := m.table
  resolver := by rw [Emission.start, Emission.start, m.count]
  code := rfl

/-- No name occurs in what is reported about an address. -/
theorem mapError_addressWord (address : Int) :
    (Emission.addressWord address).mapError ρ.fault = Emission.addressWord address := by
  unfold Emission.addressWord
  cases Instruction.ofAddress? address <;> rfl

theorem mapError_computeWord (dest comp jump : Text) :
    (Emission.computeWord dest comp jump).mapError ρ.fault =
      Emission.computeWord dest comp jump := by
  unfold Emission.computeWord
  cases Instruction.ofFields dest comp jump <;> rfl

/-- An operation has the same word in both runs, or the same fault. -/
theorem EmissionMatches.encode {ρ : Renaming} {e e' next : Emission} (m : ρ.EmissionMatches e e')
    {op : Operation} (valid : ∀ name, op = .address (.symbol name) → isName name)
    {result : Except Fault Word} (h : e.encode op = (next, result)) :
    ∃ next', e'.encode (ρ.operation op) = (next', result.mapError ρ.fault) ∧
      ρ.EmissionMatches next next' := by
  match op, valid with
  | .address (.literal value), _ =>
    obtain ⟨rfl, rfl⟩ := Prod.mk.inj h
    rw [mapError_addressWord]
    exact ⟨e', rfl, m⟩
  | .compute dest comp jump, _ =>
    obtain ⟨rfl, rfl⟩ := Prod.mk.inj h
    rw [mapError_computeWord]
    exact ⟨e', rfl, m⟩
  | .address (.symbol name), valid =>
    rw [Emission.encode] at h
    rw [Renaming.operation, Emission.encode, m.resolver]
    rcases m.table.resolve (valid name rfl) e.resolver with
      ⟨dead, dead'⟩ | ⟨address, bound, bound', resolver, found, found', tables⟩
    · rw [dead] at h
      obtain ⟨rfl, rfl⟩ := Prod.mk.inj h
      rw [dead']
      exact ⟨e', rfl, m⟩
    · rw [found] at h
      obtain ⟨rfl, rfl⟩ := Prod.mk.inj h
      rw [found', mapError_addressWord]
      exact ⟨_, rfl, tables, rfl, m.code⟩

/-- An operation is emitted in both runs, or fails in both. -/
theorem EmissionMatches.add {ρ : Renaming} {e e' next : Emission} (m : ρ.EmissionMatches e e')
    {line : SourceLine} {op : Operation}
    (valid : ∀ name, op = .address (.symbol name) → isName name) {outcome : Option LineFault}
    (h : e.add ⟨line, op⟩ = (next, outcome)) :
    ∃ next', e'.add ⟨ρ.line line, ρ.operation op⟩ = (next', outcome.map ρ.lineFault) ∧
      ρ.EmissionMatches next next' := by
  unfold Emission.add at h ⊢
  dsimp only at h ⊢
  rcases he : e.encode op with ⟨e₁, fault | w⟩
  · obtain ⟨e₁', he', matched⟩ := m.encode valid he
    rw [he] at h
    obtain ⟨rfl, rfl⟩ := Prod.mk.inj h
    rw [he']
    exact ⟨e₁', rfl, matched⟩
  · obtain ⟨e₁', he', matched⟩ := m.encode valid he
    rw [he] at h
    obtain ⟨rfl, rfl⟩ := Prod.mk.inj h
    rw [he']
    refine ⟨_, rfl, matched.table, matched.resolver, ?_⟩
    exact congrArg (·.push ⟨w, line.number⟩) matched.code

/-- One line gives the same word in both runs, or fails in both. -/
theorem EmissionMatches.addLine {ρ : Renaming} (e e' : Emission) (line : SourceLine)
    (next : Emission) (outcome : Option LineFault) (m : ρ.EmissionMatches e e')
    (h : e.addLine line = (next, outcome)) :
    ∃ next', e'.addLine (ρ.line line) = (next', outcome.map ρ.lineFault) ∧
      ρ.EmissionMatches next next' := by
  have read : Statement.parse (ρ.line line).text =
      (Statement.parse line.text).map ρ.statement := ρ.parse_text line.text
  unfold Emission.addLine at h ⊢
  rw [read]
  rcases parsed : Statement.parse line.text with fault | name | op
  · rw [parsed] at h
    obtain ⟨rfl, rfl⟩ := Prod.mk.inj h
    refine ⟨e', ?_, m⟩
    simp only [Except.map, Option.map_some, Renaming.lineFault, fault_ofStatement]
  · rw [parsed] at h
    obtain ⟨rfl, rfl⟩ := Prod.mk.inj h
    exact ⟨e', rfl, m⟩
  · rw [parsed] at h
    have valid : ∀ name, op = .address (.symbol name) → isName name := by
      rintro name rfl
      exact Statement.isName_of_parse_symbol parsed
    exact m.add valid h

/-! ## The whole assembly -/

theorem toClass_fault (f : Fault) : (ρ.fault f).toClass = f.toClass := by
  cases f <;> rfl

/-- What becomes of a program does not depend on its names.  The renamed program assembles if the
program does, to the same words from the same lines and with the same symbols under their new names.
If the program does not assemble, neither does the renamed program, and the fault is of the same class
and at the same line. -/
theorem assembleLines_rename (lines : List SourceLine) :
    match assembleLines lines with
    | .ok p => ∃ p', assembleLines (lines.map ρ.line) = .ok p' ∧ p'.words = p.words ∧
        p'.sourceMap = p.sourceMap ∧ p'.symbols.Perm (p.symbols.map ρ.symbol)
    | .error f => ∃ f', assembleLines (lines.map ρ.line) = .error f' ∧ f'.line = ρ.line f.line ∧
        f'.line.number = f.line.number ∧ f'.fault.toClass = f.fault.toClass := by
  cases h : assembleLines lines with
  | ok p =>
    obtain ⟨layout, e, first, second, rfl⟩ := passes_of_assembleLines_ok h
    obtain ⟨layout', first', layouts⟩ := ρ.addLines_rename first
    obtain ⟨e', second', emissions⟩ := scan_related EmissionMatches.addLine layouts.start second
    refine ⟨_, assembleLines_of_passes first' second', ?_, ?_, emissions.table.symbols_perm⟩
    · simp only [Program.words, emissions.code]
    · simp only [Program.sourceMap, emissions.code]
  | error f =>
    refine ⟨ρ.lineFault f, ?_, rfl, rfl, ρ.toClass_fault f.fault⟩
    rcases passes_of_assembleLines_error h with ⟨layout, first⟩ | ⟨layout, e, first, second⟩
    · rw [← Layout.addLines_eq_scan] at first
      obtain ⟨layout', first', -⟩ := ρ.addLines_rename first
      exact assembleLines_of_first_fault first'
    · obtain ⟨layout', first', layouts⟩ := ρ.addLines_rename first
      obtain ⟨e', second', -⟩ := scan_related EmissionMatches.addLine layouts.start second
      exact assembleLines_of_second_fault first' second'

/-! ## Exchanging two names -/

/-- The renaming that exchanges two names and leaves all others alone. -/
def swap (a b : Text) (ha : isName a ∧ predefinedAddress? a = none)
    (hb : isName b ∧ predefinedAddress? b = none) : Renaming where
  map n := if n = a then b else if n = b then a else n
  injective m n _ _ h := by grind
  predefined n address h := by grind
  other n valid h := by grind

/-- A loop that counts, with a label and a variable. -/
def countingLoop : List SourceLine :=
  [⟨1, Text.ascii "(LOOP)"⟩, ⟨2, Text.ascii "@i"⟩, ⟨3, Text.ascii "M=M+1"⟩,
   ⟨4, Text.ascii "@LOOP"⟩, ⟨5, Text.ascii "0;JMP"⟩]

/-- The label and the variable exchange their names. -/
def exchange : Renaming := swap (Text.ascii "LOOP") (Text.ascii "i") (by decide) (by decide)

theorem assembleLines_rename_countingLoop :
    ∃ p p', assembleLines countingLoop = .ok p ∧
      assembleLines (countingLoop.map exchange.line) = .ok p' ∧ p'.words = p.words ∧
      p'.sourceMap = p.sourceMap ∧ p'.symbols.Perm (p.symbols.map exchange.symbol) ∧
      countingLoop.map exchange.line ≠ countingLoop := by
  have outcome := exchange.assembleLines_rename countingLoop
  obtain ⟨p, assembled⟩ : ∃ p, assembleLines countingLoop = .ok p := ⟨_, rfl⟩
  rw [assembled] at outcome
  obtain ⟨p', assembled', words, sourceMap, symbols⟩ := outcome
  exact ⟨p, p', assembled, assembled', words, sourceMap, symbols, by decide⟩

end Renaming
end HackMachine
