import HackMachine.Proofs.Assembly.Correctness
import HackMachine.Proofs.Command.Effect
import Mathlib.Data.Option.Basic

/-!
# Running a source and running its listing

A run command takes a source or a listing, and tells them apart by the name of the file.  Assembling
a source and writing its listing is the same as loading the source directly, since a listing gives
back its words (`listingWords_listing`), so both files load the same words
(`loadWords_of_source`, `loadWords_of_listing`).

From there on a run depends on the words and the options; the path is only named in what is printed.
`Report.SameBut` says that two reports differ in that path only: in the line that tells where the
run has ended, and in the heading of a failure.  Two runs of the same words print such lines and end
in the same way, or neither comes to an end (`runWords_cases`).
-/

namespace HackMachine

open Command

/-! ## Reports that differ in a path -/

/-- Two texts that say the same of two names: both are empty, or each has its own name behind the
same words, and they go on alike. -/
def Text.SameBut (words name name' t t' : Text) : Prop :=
  t = [] ∧ t' = [] ∨ ∃ rest, t = words ++ (name ++ rest) ∧ t' = words ++ (name' ++ rest)

/-- Two reports of runs that differ only in the path that each of them names. -/
structure Report.SameBut (path path' : Text) (r r' : Report) : Prop where
  succeeded : r.succeeded = r'.succeeded
  output : Text.SameBut (Text.ascii "run complete (") path path' r.output r'.output
  errors : Text.SameBut (Text.ascii "run failed for ") path.quoted path'.quoted r.errors
    r'.errors

/-- The report of a run that prints lines and then ends. -/
def endReport (path : Text) (lines : List Text) (why : Option Failure) : Report where
  output := lines.flatten
  errors := (why.map (failureLine (runHeading path))).getD []
  succeeded := why.isNone

theorem perform_printAll_conclude (tree : FileTree) (path : Text) (lines : List Text)
    (why : Option Failure) :
    tree.perform (.printAll .output lines (conclude (runHeading path) why)) =
      (tree, some (endReport path lines why)) := by
  obtain ⟨record, performed, output, others⟩ :=
    tree.exists_perform_printAll [] .output lines (conclude (runHeading path) why)
  have output : Stream.output.printed record = lines.flatten := output
  have errors : Stream.errors.printed record = [] := others .errors (by decide)
  cases why with
  | none =>
    rw [FileTree.perform_of_host (performed.trans rfl), output, errors]
    rfl
  | some why =>
    rw [FileTree.perform_of_host (performed.trans rfl), FileTree.printed_cons,
      FileTree.printed_cons, output, errors]
    simp [endReport]

/-- Two runs that have printed the same and end in the same way. -/
theorem sameBut_endReport {path path' : Text} {lines lines' : List Text} (why : Option Failure)
    (printed : Text.SameBut (Text.ascii "run complete (") path path' lines.flatten lines'.flatten) :
    Report.SameBut path path' (endReport path lines why) (endReport path' lines' why) where
  succeeded := rfl
  output := printed
  errors := by
    cases why with
    | none => exact .inl ⟨rfl, rfl⟩
    | some why =>
      refine .inr ⟨Text.ascii ": " ++ (why.message ++ [Text.newline]), ?_, ?_⟩
      · simp only [endReport, Option.map_some, Option.getD_some, failureLine, runHeading,
          List.append_assoc]
      · simp only [endReport, Option.map_some, Option.getD_some, failureLine, runHeading,
          List.append_assoc]

/-- What the line that tells where a run has ended says behind the path. -/
def runState (m : Machine) : Text :=
  Text.ascii "): steps=" ++ (Text.signedDecimal m.steps.toInt ++ (Text.ascii " PC=" ++
    (Text.decimal m.pc.toNat ++ (Text.ascii " A=" ++ (Text.decimal m.a.toNat ++
      (Text.ascii " D=" ++ (Text.signedDecimal m.d.toSigned ++ [Text.newline])))))))

theorem runLine_eq (path : Text) (m : Machine) :
    runLine path m = Text.ascii "run complete (" ++ (path ++ runState m) := by
  simp only [runLine, runState, List.append_assoc]

/-- Two runs of the same words print the same but for the path and end in the same way, or neither
comes to an end. -/
theorem runWords_cases (fuel : Nat) (path path' : Text) (options : RunOptions)
    (words : Array Word) :
    (runWords fuel path options words = .unfinished ∧
        runWords fuel path' options words = .unfinished) ∨
      ∃ lines lines' why,
        runWords fuel path options words =
          .printAll .output lines (conclude (runHeading path) why) ∧
        runWords fuel path' options words =
          .printAll .output lines' (conclude (runHeading path') why) ∧
        Text.SameBut (Text.ascii "run complete (") path path' lines.flatten lines'.flatten := by
  unfold runWords
  cases (Machine.load words).initialiseAll options.set with
  | error why => exact .inr ⟨[], [], some why, rfl, rfl, .inl ⟨rfl, rfl⟩⟩
  | ok m =>
    dsimp only
    cases m.run options.maxSteps fuel with
    | none => exact .inl ⟨rfl, rfl⟩
    | some outcome =>
      obtain ⟨m, _ | fault⟩ := outcome
      · refine .inr ⟨_, _, _, rfl, rfl,
          .inr ⟨runState m ++ (m.dumpCells options.dump).1.flatten, ?_, ?_⟩⟩
        · rw [List.flatten_cons, runLine_eq, List.append_assoc, List.append_assoc]
        · rw [List.flatten_cons, runLine_eq, List.append_assoc, List.append_assoc]
      · exact .inr ⟨[], [], some (.machine fault), rfl, rfl, .inl ⟨rfl, rfl⟩⟩

/-! ## Loading -/

section Load

variable {path t : Text} {p : Program}

theorem loadWords_of_source (isSource : Path.extension path = sourceExtension)
    (assembled : assembleText t = .ok p) : loadWords path t = .ok p.words := by
  rw [loadWords, if_pos isSource, inputProgram, assembled]
  rfl

theorem loadWords_of_listing (isListing : Path.extension path ≠ sourceExtension)
    (words : Array Word) : loadWords path (listing words) = .ok words := by
  rw [loadWords, if_neg isListing, listingWords_listing]
  rfl

/-- A run whose file can be loaded is a run of its words. -/
theorem perform_run {tree : FileTree} {words : Array Word} (s : Surroundings)
    (options : RunOptions) (content : tree.read path = .ok t)
    (loaded : loadWords path t = .ok words) :
    tree.perform (session s (.run path options)) =
      tree.perform (runWords s.fuel path options words) := by
  have isText : inputText path (FileTree.host.read tree path) = .ok t :=
    inputText_eq_ok_iff.2 content
  have runs : loadAndRun s.fuel path options t = runWords s.fuel path options words := by
    rw [loadAndRun, loaded]
  rw [session, runSession, FileTree.perform, Host.perform, isText]
  dsimp only
  rw [runs]
  by_cases isSource : Path.extension path = sourceExtension
  · rw [if_pos isSource]
    rfl
  · rw [if_neg isSource]
    rfl

/-! ## Assembling -/

/-- A text that is written to `out` stands on the standard output or in the file. -/
def Delivered (out content : Text) (after : FileTree) (report : Report) : Prop :=
  if out = standardOutput then report.output = content else after.read out = .ok content

/-- Assembling a source delivers its listing, unless the file system refuses it. -/
theorem perform_assemble {tree : FileTree} (s : Surroundings) (options : AssembleOptions)
    (content : tree.read path = .ok t) (assembled : assembleText t = .ok p) :
    ∃ after report,
      tree.perform (session s (.assemble path options)) = (after, some report) ∧
      (report.succeeded = true ∧ (∃ out, assembleOutput s.cwd path options = .ok out ∧
          Delivered out (listing p.words) after report) ∨
        report.succeeded = false ∧ ∀ out, assembleOutput s.cwd path options = .ok out →
          out ≠ standardOutput ∧ ∃ fault, tree.write out (listing p.words) = .error fault) := by
  have only : ∀ out text, Product s.cwd tree.read (.assemble path options) out text →
      assembleOutput s.cwd path options = .ok out ∧ text = listing p.words := by
    intro out text made
    cases made with
    | listing content' assembled' located =>
      cases content.symm.trans content'
      cases assembled.symm.trans assembled'
      exact ⟨located, rfl⟩
  have conclusion := FileTree.host.conclusion_assemble s ⟨tree, []⟩ path options
  rw [FileTree.perform]
  rcases ends : FileTree.host.perform ⟨tree, []⟩ (session s (.assemble path options)) with
    ⟨after, result⟩
  rw [ends] at conclusion
  cases conclusion with
  | printed made earlier prints later =>
    obtain ⟨located, rfl⟩ := only _ _ made
    refine ⟨_, _, rfl, .inl ⟨rfl, _, located, ?_⟩⟩
    obtain ⟨part, -, shown, whole⟩ := FileTree.lawful_host.exists_part earlier prints later
    rw [whole rfl] at shown
    rw [Delivered, if_pos rfl]
    exact shown
  | written made file earlier writes later =>
    obtain ⟨located, rfl⟩ := only _ _ made
    refine ⟨_, _, rfl, .inl ⟨rfl, _, located, ?_⟩⟩
    rw [Delivered, if_neg file, FileTree.files_of_tells later]
    exact FileTree.read_of_write writes
  | brokenOff _ _ _ breaks => cases breaks
  | failed refused =>
    refine ⟨_, _, rfl, .inr ⟨rfl, fun out located => ?_⟩⟩
    have refuses := refused _ _ (.listing content assembled located)
    unfold Host.Refuses at refuses
    by_cases standard : out = standardOutput
    · rw [if_pos standard] at refuses
      obtain ⟨before, next, fault, -, breaks⟩ := refuses
      cases breaks
    · rw [if_neg standard] at refuses
      obtain ⟨before, fault, earlier, refused⟩ := refuses
      rw [FileTree.files_of_tells earlier] at refused
      exact ⟨standard, fault, refused⟩

end Load

/-- A source that assembles and a listing of its words load the same words.  Whatever the options
are, running one file and running the other changes no file, and either both runs end, with reports
that are the same but for the path, or neither does.  What the assemble command delivers for the
source is such a listing. -/
theorem run_source_like_listing {t source : Text} {p : Program}
    (isSource : Path.extension source = sourceExtension) (assembled : assembleText t = .ok p)
    (s : Surroundings) :
    (∀ (tree : FileTree) (options : AssembleOptions), tree.read source = .ok t →
      ∃ after report,
        tree.perform (session s (.assemble source options)) = (after, some report) ∧
        (report.succeeded = true ∧ (∃ out, assembleOutput s.cwd source options = .ok out ∧
            Delivered out (listing p.words) after report) ∨
          report.succeeded = false ∧ ∀ out, assembleOutput s.cwd source options = .ok out →
            out ≠ standardOutput ∧ ∃ fault, tree.write out (listing p.words) = .error fault)) ∧
    ∀ (binary : Text) (options : RunOptions), Path.extension binary ≠ sourceExtension →
      loadWords source t = .ok p.words ∧ loadWords binary (listing p.words) = .ok p.words ∧
      ∀ tree tree' : FileTree, tree.read source = .ok t →
        tree'.read binary = .ok (listing p.words) →
        ∃ result result',
          tree.perform (session s (.run source options)) = (tree, result) ∧
          tree'.perform (session s (.run binary options)) = (tree', result') ∧
          Option.Rel (Report.SameBut source binary) result result' := by
  refine ⟨fun tree options content => perform_assemble s options content assembled, ?_⟩
  intro binary options isListing
  have fromSource := loadWords_of_source isSource assembled
  have fromListing := loadWords_of_listing isListing p.words
  refine ⟨fromSource, fromListing, fun tree tree' content content' => ?_⟩
  rw [perform_run s options content fromSource, perform_run s options content' fromListing]
  rcases runWords_cases s.fuel source binary options p.words with
    ⟨running, running'⟩ | ⟨lines, lines', why, ended, ended', same⟩
  · rw [running, running']
    exact ⟨none, none, rfl, rfl, .none⟩
  · rw [ended, ended', perform_printAll_conclude, perform_printAll_conclude]
    exact ⟨_, _, rfl, rfl, .some (sameBut_endReport why same)⟩

/-- A program that stores a number in the second register, and halts behind its last word. -/
def storeFive : Text := Text.ascii "@5 // the number\nD=A\n@R1\nM=D\n"

/-- A directory with a source and a listing of its words. -/
def bothForms : FileTree :=
  .ofFiles (Text.ascii "/work")
    [(Text.ascii "five.asm", storeFive),
      (Text.ascii "five.hack", listing #[5, 0xEC10, 1, 0xE308])]

/-- Enough for the program to halt. -/
def tenSteps : Surroundings := { atWork with fuel := 10 }

theorem run_source_like_listing_storeFive :
    ∃ p, assembleText storeFive = .ok p ∧ p.words = #[5, 0xEC10, 1, 0xE308] ∧
      loadWords (Text.ascii "five.asm") storeFive = .ok p.words ∧
      loadWords (Text.ascii "five.hack") (listing p.words) = .ok p.words ∧
      ∃ result result',
        bothForms.perform (session tenSteps (.run (Text.ascii "five.asm") {})) =
          (bothForms, result) ∧
        bothForms.perform (session tenSteps (.run (Text.ascii "five.hack") {})) =
          (bothForms, result') ∧
        Option.Rel (Report.SameBut (Text.ascii "five.asm") (Text.ascii "five.hack")) result
          result' := by
  have words : (assembleText storeFive).map (·.words) = .ok #[5, 0xEC10, 1, 0xE308] := rfl
  cases assembled : assembleText storeFive with
  | ok p =>
    rw [assembled] at words
    have words : p.words = #[5, 0xEC10, 1, 0xE308] := Except.ok.inj words
    have content' : bothForms.read (Text.ascii "five.hack") = .ok (listing p.words) := by
      rw [words]
      rfl
    have isSource : Path.extension (Text.ascii "five.asm") = sourceExtension := by decide
    obtain ⟨-, runs⟩ := run_source_like_listing isSource assembled tenSteps
    obtain ⟨fromSource, fromListing, same⟩ := runs (Text.ascii "five.hack") {} (by decide)
    exact ⟨p, rfl, words, fromSource, fromListing, same bothForms bothForms rfl content'⟩
  | error fault =>
    rw [assembled] at words
    cases words

end HackMachine
