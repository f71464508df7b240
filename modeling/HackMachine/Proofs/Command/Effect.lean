import HackMachine.Command.Session
import HackMachine.Proofs.Files.Host
import HackMachine.Proofs.Listing

/-!
# What commands do to files

A command writes at most one file, and only when everything else has been done.  So a command that
fails has not changed any file, and one that succeeds has changed nothing but its output, which is
complete.  The log is not counted among the files here: it is kept for failing commands as well.

## Products

What a command is to deliver, and where, is fixed by its input and the working directory: `Product`
says it without the command.  An assembly delivers the listing of the words of the program, and a
disassembly one line for each word of the listing; a run has no product.

## Sessions that deliver

`Session.Delivers` describes the last part of a session, from the point where the product is known.
It prints the product or writes it to a file, and ends as this turns out.  Both writing commands end
in this way (`delivers_writeProgram`, `delivers_writeInstructions`), and `conclusion_of_delivers` says
what becomes of the files and of the standard output.  Before this point, sessions only read, and
tell the log.

The main statement is `failing_command_changes_no_file`.  It is about any lawful host, and about any
way to read arguments.  Some arguments may say how the log is kept; then the host is the one that they
ask for.
-/

namespace HackMachine

open Command

/-- The command runs a program. -/
def Command.IsRun (command : Command) : Prop := ∃ path options, command = .run path options

theorem not_isRun_assemble (path : Text) (options : AssembleOptions) :
    ¬ (Command.assemble path options).IsRun := by
  rintro ⟨path', options', same⟩
  cases same

theorem not_isRun_disassemble (path out : Text) : ¬ (Command.disassemble path out).IsRun := by
  rintro ⟨path', options', same⟩
  cases same

/-! ## Products -/

/-- What a command is to deliver: the output, a file or the standard output, and the text.  `read`
gives the content of files. -/
inductive Product (cwd : Except Path.DirectoryFault Text) (read : Text → Except FileFault Text) :
    Command → Text → Text → Prop where
  | listing {path t out : Text} {options : AssembleOptions} {p : Program} (input : read path = .ok t)
      (assembled : assembleText t = .ok p) (located : assembleOutput cwd path options = .ok out) :
      Product cwd read (.assemble path options) out (HackMachine.listing p.words)
  | assembly {path out t : Text} {instructions : List Instruction} (input : read path = .ok t)
      (decoded : IsInstructionListing t instructions) :
      Product cwd read (.disassemble path out) out (assemblyText instructions)

theorem inputText_eq_ok_iff {path t : Text} {answer : Except FileFault Text} :
    inputText path answer = .ok t ↔ answer = .ok t := by
  rcases answer with (⟨p, cause⟩ | ⟨p, cause⟩) | content
  · simp [inputText]
  · simp [inputText]
  · simp [inputText]

theorem inputProgram_eq_ok_iff {t : Text} {p : Program} :
    inputProgram t = .ok p ↔ assembleText t = .ok p := by
  cases assembled : assembleText t with
  | error fault => simp [inputProgram, assembled, Except.mapError]
  | ok p' => simp [inputProgram, assembled, Except.mapError]

theorem inputInstructions_eq_ok_iff {path : Text} {answer : Except FileFault Text}
    {instructions : List Instruction} :
    inputText path answer >>= listingInstructions = .ok instructions ↔
      ∃ t, answer = .ok t ∧ IsInstructionListing t instructions := by
  cases isText : inputText path answer with
  | error why =>
    refine iff_of_false (by simp [bind, Except.bind]) ?_
    rintro ⟨t, rfl, -⟩
    cases isText
  | ok t =>
    obtain rfl := inputText_eq_ok_iff.1 isText
    simp [bind, Except.bind, listingInstructions_eq_ok_iff]

section Product

variable {cwd : Except Path.DirectoryFault Text} {path out content : Text}
  {read : Text → Except FileFault Text}

theorem product_assemble_iff {options : AssembleOptions} :
    Product cwd read (.assemble path options) out content ↔
      ∃ t, inputText path (read path) = .ok t ∧ ∃ p, inputProgram t = .ok p ∧
        assembleOutput cwd path options = .ok out ∧ content = listing p.words := by
  constructor
  · intro made
    cases made with
    | listing input assembled located =>
      exact ⟨_, inputText_eq_ok_iff.2 input, _, inputProgram_eq_ok_iff.2 assembled, located, rfl⟩
  · rintro ⟨t, input, p, assembled, located, rfl⟩
    exact .listing (inputText_eq_ok_iff.1 input) (inputProgram_eq_ok_iff.1 assembled) located

theorem product_disassemble_iff {target : Text} :
    Product cwd read (.disassemble path target) out content ↔
      ∃ instructions, inputText path (read path) >>= listingInstructions = .ok instructions ∧
        out = target ∧ content = assemblyText instructions := by
  constructor
  · intro made
    cases made with
    | assembly input decoded =>
      exact ⟨_, inputInstructions_eq_ok_iff.2 ⟨_, input, decoded⟩, rfl, rfl⟩
  · rintro ⟨instructions, produced, rfl, rfl⟩
    obtain ⟨t, input, decoded⟩ := inputInstructions_eq_ok_iff.1 produced
    exact .assembly input decoded

end Product

/-! ## Sessions that deliver -/

namespace Session

/-- A session that prints errors at most, and fails. -/
inductive Fails : Session → Prop where
  | finish : Fails (.finish false)
  | print {content : Text} {next : Option PrintFault → Session}
      (later : ∀ fault, Fails (next fault)) : Fails (.print .errors content next)

/-- A session that prints at most, and succeeds. -/
inductive Succeeds : Session → Prop where
  | finish : Succeeds (.finish true)
  | print {stream : Stream} {content : Text} {next : Option PrintFault → Session}
      (later : ∀ fault, Succeeds (next fault)) : Succeeds (.print stream content next)

/-- A session that delivers a text, and apart from this only prints errors and keeps the log.  It
succeeds if the text has been delivered. -/
inductive Delivers (out content : Text) : Session → Prop where
  | errors {text : Text} {next : Option PrintFault → Session}
      (later : ∀ fault, Delivers out content (next fault)) :
      Delivers out content (.print .errors text next)
  | log {event : LogEvent} {next : Session} (later : Delivers out content next) :
      Delivers out content (.log event next)
  | print {next : Option PrintFault → Session} (standard : out = standardOutput)
      (refused : ∀ fault, (next (some fault)).Fails) (printed : next none = .finish true) :
      Delivers out content (.print .output content next)
  | write {next : Option FileFault → Session} (file : out ≠ standardOutput)
      (refused : ∀ fault, (next (some fault)).Fails) (written : (next none).Succeeds) :
      Delivers out content (.write out content next)

theorem fails_fail (heading : Text) (why : Failure) : (fail heading why).Fails :=
  .print fun _ => .finish

theorem fails_printAll (texts : List Text) {next : Session} (later : next.Fails) :
    (printAll .errors texts next).Fails :=
  printAll_of (fun _ _ fails => .print fun _ => fails) texts later

theorem delivers_printAll {out content : Text} (texts : List Text) {next : Session}
    (later : next.Delivers out content) : (printAll .errors texts next).Delivers out content :=
  printAll_of (fun _ _ delivers => .errors fun _ => delivers) texts later

theorem delivers_writeListing (out : Text) (words : Array Word) :
    (writeListing out words).Delivers out (listing words) := by
  unfold writeListing
  by_cases standard : out = standardOutput
  · rw [if_pos standard]
    exact .print standard (fun fault => fails_fail assembleHeading (.print fault)) rfl
  · rw [if_neg standard]
    exact .write standard (fun fault => fails_fail assembleHeading (.output out fault))
      (.print fun _ => .finish)

section Program

variable {s : Surroundings} {path out : Text} {options : AssembleOptions}

theorem delivers_writeProgram (located : assembleOutput s.cwd path options = .ok out) (p : Program) :
    (writeProgram s path options p).Delivers out (listing p.words) := by
  rw [writeProgram, located]
  exact delivers_printAll _ (delivers_printAll _ (delivers_writeListing _ _))

theorem fails_writeProgram {why : Failure} (unknown : assembleOutput s.cwd path options = .error why)
    (p : Program) : (writeProgram s path options p).Fails := by
  rw [writeProgram, unknown]
  exact fails_printAll _ (fails_printAll _ (fails_fail _ why))

end Program

theorem delivers_writeInstructions (out : Text) (instructions : List Instruction) :
    (writeInstructions out instructions).Delivers out (assemblyText instructions) := by
  unfold writeInstructions
  by_cases standard : out = standardOutput
  · rw [if_pos standard]
    exact .print standard (fun fault => fails_fail disassembleHeading (.print fault)) rfl
  · rw [if_neg standard]
    exact .write standard (fun fault => fails_fail disassembleHeading (.file fault)) .finish

/-- A run writes no file. -/
theorem readOnly_runSession (fuel : Nat) (path : Text) (options : RunOptions) :
    (runSession fuel path options).ReadOnly := by
  have failing : ∀ why, (fail (runHeading path) why).ReadOnly :=
    fun why => .print fun _ => .finish false
  have reporting : ∀ m, (reportRun path options m).ReadOnly := by
    intro m
    refine readOnly_printAll _ _ ?_
    cases (m.dumpCells options.dump).2 with
    | none => exact .finish true
    | some why => exact failing why
  have running : ∀ words, (runWords fuel path options words).ReadOnly := by
    intro words
    unfold runWords
    rcases (Machine.load words).initialiseAll options.set with why | m
    · exact failing why
    · dsimp only
      rcases m.run options.maxSteps fuel with _ | ⟨m, _ | fault⟩
      · exact .unfinished
      · exact reporting m
      · exact failing (.machine fault)
  have loading : ∀ text, (loadAndRun fuel path options text).ReadOnly := by
    intro text
    unfold loadAndRun
    rcases loadWords path text with why | words
    · exact failing why
    · exact running words
  refine .read fun answer => ?_
  rcases inputText path answer with why | text
  · exact failing why
  · dsimp only
    by_cases isSource : Path.extension path = sourceExtension
    · rw [if_pos isSource]
      exact .log (loading text)
    · rw [if_neg isSource]
      exact loading text

end Session

/-! ## How a command ends -/

namespace Host

variable {Files Screen Place : Type}

section Outcome

variable (host : Host Files Screen) (view : View Files Screen Place) (world : World Files Screen)

/-- An output has received a text: it has been shown and no file has changed, or it is all there is
in the file that `out` leads to, and no other file has changed.  The log may have been kept. -/
def Receives (out content : Text) (after : World Files Screen) : Prop :=
  if out = standardOutput then
    view.shown after.screen = view.shown world.screen ++ content ∧
      host.WritesNothing world after ∧ view.Unchanged world.files after.files
  else ∃ before place, host.Quiet world before ∧ view.place? before.files out = some place ∧
    (¬ view.isLog place → view.content? after.files place = some content) ∧
    ∀ other, other ≠ place → ¬ view.isLog other →
      view.content? after.files other = view.content? world.files other

/-- The host refuses to deliver a text: it cannot be printed or written, and nothing has been done
before but to tell the log and to print errors. -/
def Refuses (out content : Text) : Prop :=
  if out = standardOutput then
    ∃ before next fault, host.Quiet world before ∧
      host.print .output before.screen content = (next, some fault)
  else ∃ before fault, host.Quiet world before ∧
    host.write before.files out content = .error fault

/-- How a command ends that has to deliver a product.  It succeeds if the product has been printed or
written, and otherwise it fails. -/
inductive Conclusion (product : Text → Text → Prop) : World Files Screen × Option Bool → Prop where
  | printed {content : Text} {before after : World Files Screen} {next : Screen}
      (made : product standardOutput content) (earlier : host.Quiet world before)
      (prints : host.print .output before.screen content = (next, none))
      (later : host.Quiet { before with screen := next } after) :
      Conclusion product (after, some true)
  | written {out content : Text} {before after : World Files Screen} {files : Files}
      (made : product out content) (file : out ≠ standardOutput) (earlier : host.Quiet world before)
      (writes : host.write before.files out content = .ok files)
      (later : host.WritesNothing { before with files := files } after) :
      Conclusion product (after, some true)
  | brokenOff {content : Text} {before after : World Files Screen} {next : Screen}
      {fault : PrintFault} (made : product standardOutput content)
      (refused : ∀ out content, product out content → host.Refuses world out content)
      (earlier : host.Quiet world before)
      (breaks : host.print .output before.screen content = (next, some fault))
      (later : host.Quiet { before with screen := next } after) :
      Conclusion product (after, some false)
  | failed {after : World Files Screen}
      (refused : ∀ out content, product out content → host.Refuses world out content)
      (quiet : host.Quiet world after) : Conclusion product (after, some false)

end Outcome

variable {host : Host Files Screen} {view : View Files Screen Place} {world : World Files Screen}

/-! ### What a conclusion says -/

namespace Conclusion

variable {product : Text → Text → Prop} {after : World Files Screen} {result : Option Bool}

theorem exists_result (conclusion : host.Conclusion world product (after, result)) :
    ∃ succeeded, result = some succeeded ∧ ∀ out content, product out content →
      succeeded = true ∨ host.Refuses world out content := by
  cases conclusion with
  | printed => exact ⟨true, rfl, fun _ _ _ => .inl rfl⟩
  | written => exact ⟨true, rfl, fun _ _ _ => .inl rfl⟩
  | brokenOff made refused =>
    exact ⟨false, rfl, fun out content made => .inr (refused out content made)⟩
  | failed refused => exact ⟨false, rfl, fun out content made => .inr (refused out content made)⟩

theorem writesNothing_of_failed (conclusion : host.Conclusion world product (after, result))
    (failed : result ≠ some true) : host.WritesNothing world after := by
  cases conclusion with
  | printed => exact absurd rfl failed
  | written => exact absurd rfl failed
  | brokenOff _ _ earlier breaks later =>
    exact (earlier.writesNothing.print trivial breaks).trans later.writesNothing
  | failed _ quiet => exact quiet.writesNothing

/-- A command that fails has shown nothing, or a part of its product that broke off. -/
theorem shown_of_failed (lawful : host.Lawful view)
    (conclusion : host.Conclusion world product (after, some false)) :
    (host.PrintsWhole view → view.shown after.screen = view.shown world.screen) ∧
      (view.shown after.screen = view.shown world.screen ∨
        ∃ content part, product standardOutput content ∧ part <+: content ∧
          view.shown after.screen = view.shown world.screen ++ part) := by
  cases conclusion with
  | brokenOff made _ earlier breaks later =>
    refine ⟨fun whole => ?_, .inr ?_⟩
    · rw [lawful.shown later, whole breaks, lawful.shown earlier]
    · obtain ⟨part, isPart, shown, -⟩ := lawful.exists_part earlier breaks later
      exact ⟨_, part, made, isPart, shown⟩
  | failed _ quiet => exact ⟨fun _ => lawful.shown quiet, .inl (lawful.shown quiet)⟩

/-- A command that succeeds has delivered its product. -/
theorem receives_of_succeeded (lawful : host.Lawful view)
    (conclusion : host.Conclusion world product (after, some true)) :
    ∃ out content, product out content ∧ host.Receives view world out content after := by
  cases conclusion with
  | printed made earlier prints later =>
    refine ⟨standardOutput, _, made, ?_⟩
    rw [Receives, if_pos rfl]
    have nothing := (earlier.writesNothing.print trivial prints).trans later.writesNothing
    obtain ⟨part, -, shown, whole⟩ := lawful.exists_part earlier prints later
    rw [whole rfl] at shown
    exact ⟨shown, nothing, lawful.unchanged nothing⟩
  | written made file earlier writes later =>
    refine ⟨_, _, made, ?_⟩
    rw [Receives, if_neg file]
    obtain ⟨place, located, complete, others⟩ := lawful.write writes
    refine ⟨_, place, earlier, located, fun notLog => ?_, fun other apart notLog => ?_⟩
    · rw [lawful.unchanged later place notLog, complete]
    · rw [lawful.unchanged later other notLog, others other apart,
        lawful.unchanged earlier other notLog]

end Conclusion

/-! ### Reaching a conclusion -/

section Reaching

variable {product : Text → Text → Prop} {out content : Text} {session : Session}

theorem Refuses.of_earlier {world' : World Files Screen} (quiet : host.Quiet world world')
    (refuses : host.Refuses world' out content) : host.Refuses world out content := by
  unfold Refuses at refuses ⊢
  by_cases standard : out = standardOutput
  · rw [if_pos standard] at refuses ⊢
    obtain ⟨before, next, fault, earlier, breaks⟩ := refuses
    exact ⟨before, next, fault, quiet.trans earlier, breaks⟩
  · rw [if_neg standard] at refuses ⊢
    obtain ⟨before, fault, earlier, refused⟩ := refuses
    exact ⟨before, fault, quiet.trans earlier, refused⟩

/-- What has happened before does not matter, as long as it was only to tell the log and to print
errors. -/
theorem Conclusion.of_earlier {world' : World Files Screen} (quiet : host.Quiet world world')
    {ending : World Files Screen × Option Bool} (conclusion : host.Conclusion world' product ending) :
    host.Conclusion world product ending := by
  cases conclusion with
  | printed made earlier prints later => exact .printed made (quiet.trans earlier) prints later
  | written made file earlier writes later =>
    exact .written made file (quiet.trans earlier) writes later
  | brokenOff made refused earlier breaks later =>
    exact .brokenOff made (fun out content made => (refused out content made).of_earlier quiet)
      (quiet.trans earlier) breaks later
  | failed refused quiet' =>
    exact .failed (fun out content made => (refused out content made).of_earlier quiet)
      (quiet.trans quiet')

theorem perform_of_fails (host : Host Files Screen) (fails : session.Fails)
    (world : World Files Screen) :
    ∃ after, host.perform world session = (after, some false) ∧ host.Quiet world after := by
  induction fails generalizing world with
  | finish => exact ⟨host.flush world, rfl, .flush .start⟩
  | @print content _ _ ih =>
    rcases printed : host.print .errors world.screen content with ⟨screen, fault⟩
    have first : host.Quiet world { world with screen := screen } := .print rfl .start printed
    obtain ⟨after, ends, quiet⟩ := ih fault { world with screen := screen }
    exact ⟨after, (perform_print printed).trans ends, first.trans quiet⟩

theorem perform_of_succeeds (host : Host Files Screen) (succeeds : session.Succeeds)
    (world : World Files Screen) :
    ∃ after, host.perform world session = (after, some true) ∧ host.WritesNothing world after := by
  induction succeeds generalizing world with
  | finish => exact ⟨host.flush world, rfl, .flush .start⟩
  | @print stream content _ _ ih =>
    rcases printed : host.print stream world.screen content with ⟨screen, fault⟩
    obtain ⟨after, ends, nothing⟩ := ih fault { world with screen := screen }
    exact ⟨after, (perform_print printed).trans ends,
      (Tells.start.print trivial printed).trans nothing⟩

/-- A command without a product that fails concludes. -/
theorem conclusion_of_fails (nothing : ∀ out content, ¬ product out content)
    (fails : session.Fails) (world : World Files Screen) :
    host.Conclusion world product (host.perform world session) := by
  obtain ⟨after, ends, quiet⟩ := host.perform_of_fails fails world
  rw [ends]
  exact .failed (fun out content made => absurd made (nothing out content)) quiet

/-- A session that delivers its product concludes. -/
theorem conclusion_of_delivers
    (only : ∀ out' content', product out' content' ↔ out' = out ∧ content' = content)
    (delivers : session.Delivers out content) (world : World Files Screen) :
    host.Conclusion world product (host.perform world session) := by
  have made : product out content := (only out content).2 ⟨rfl, rfl⟩
  induction delivers generalizing world with
  | @errors text _ _ ih =>
    rcases printed : host.print .errors world.screen text with ⟨screen, fault⟩
    rw [perform_print printed]
    exact .of_earlier (.print rfl .start printed) (ih fault { world with screen := screen })
  | @log event _ _ ih => exact .of_earlier (.log event .start) (ih (host.log event world))
  | print standard refused succeeds =>
    subst standard
    rcases printed : host.print .output world.screen content with ⟨screen, _ | fault⟩
    · rw [perform_print printed, succeeds]
      exact .printed made .start printed (.flush .start)
    · obtain ⟨after, ends, quiet⟩ :=
        host.perform_of_fails (refused fault) { world with screen := screen }
      rw [perform_print printed, ends]
      refine .brokenOff made (fun out content' made' => ?_) .start printed quiet
      obtain ⟨rfl, rfl⟩ := (only out content').1 made'
      rw [Refuses, if_pos rfl]
      exact ⟨world, screen, fault, .start, printed⟩
  | write file refused written =>
    cases writes : host.write world.files out content with
    | error fault =>
      obtain ⟨after, ends, quiet⟩ := host.perform_of_fails (refused fault) world
      rw [perform_write_of_refused writes, ends]
      refine .failed (fun out' content' made' => ?_) quiet
      obtain ⟨rfl, rfl⟩ := (only out' content').1 made'
      rw [Refuses, if_neg file]
      exact ⟨world, fault, .start, writes⟩
    | ok files =>
      obtain ⟨after, ends, nothing⟩ := host.perform_of_succeeds written { world with files := files }
      rw [perform_write_of_written writes, ends]
      exact .written made file .start writes nothing

end Reaching

/-! ### The commands -/

/-- The files as they are when a command opens its input. -/
def opened (host : Host Files Screen) (world : World Files Screen) : Command → Files
  | .assemble path _ => (host.log (.opening path) world).files
  | .disassemble _ _ => world.files
  | .run _ _ => world.files

section Commands

variable (host) (s : Surroundings) (world : World Files Screen)

theorem conclusion_assemble (path : Text) (options : AssembleOptions) :
    host.Conclusion world
      (Product s.cwd (host.read (host.log (.opening path) world).files) (.assemble path options))
      (host.perform world (session s (.assemble path options))) := by
  rw [session, assembleSession, perform, perform]
  refine .of_earlier (.log (.opening path) .start) ?_
  cases isText : inputText path (host.read (host.log (.opening path) world).files path) with
  | error why =>
    refine conclusion_of_fails (fun out content made => ?_) (Session.fails_fail _ why) _
    obtain ⟨t, isText', -⟩ := product_assemble_iff.1 made
    cases isText.symm.trans isText'
  | ok text =>
    dsimp only
    rw [perform]
    refine .of_earlier (.log (.assembling text) .start) ?_
    cases assembled : inputProgram text with
    | error why =>
      refine conclusion_of_fails (fun out content made => ?_) (Session.fails_fail _ why) _
      obtain ⟨t, isText', p, assembled', -⟩ := product_assemble_iff.1 made
      cases isText.symm.trans isText'
      cases assembled.symm.trans assembled'
    | ok p =>
      cases located : assembleOutput s.cwd path options with
      | error why =>
        refine conclusion_of_fails (fun out content made => ?_)
          (Session.fails_writeProgram located p) _
        obtain ⟨t, isText', p, assembled', located', -⟩ := product_assemble_iff.1 made
        cases located.symm.trans located'
      | ok output =>
        refine conclusion_of_delivers (fun out content => ?_)
          (Session.delivers_writeProgram located p) _
        rw [product_assemble_iff, isText, located]
        simp only [Except.ok.injEq, exists_eq_left', assembled, eq_comm]

theorem conclusion_disassemble (path out : Text) :
    host.Conclusion world (Product s.cwd (host.read world.files) (.disassemble path out))
      (host.perform world (session s (.disassemble path out))) := by
  rw [session, disassembleSession, perform]
  cases produced : inputText path (host.read world.files path) >>= listingInstructions with
  | error why =>
    refine conclusion_of_fails (fun out content made => ?_) (Session.fails_fail _ why) _
    obtain ⟨instructions, produced', -⟩ := product_disassemble_iff.1 made
    cases produced.symm.trans produced'
  | ok instructions =>
    refine conclusion_of_delivers (fun out content => ?_)
      (.log (Session.delivers_writeInstructions out instructions)) _
    rw [product_disassemble_iff, produced]
    simp only [Except.ok.injEq, exists_eq_left']

/-- A command that is not a run concludes. -/
theorem conclusion_of_not_isRun {command : Command} (notRun : ¬ command.IsRun) :
    host.Conclusion world (Product s.cwd (host.read (host.opened world command)) command)
      (host.perform world (session s command)) := by
  cases command with
  | assemble path options => exact host.conclusion_assemble s world path options
  | disassemble path out => exact host.conclusion_disassemble s world path out
  | run path options => exact absurd ⟨path, options, rfl⟩ notRun

end Commands

end Host

/-! ## All arguments -/

/-- What does not write a file: a run, and arguments that are not a command. -/
theorem Session.readOnly_sessionOf (s : Surroundings) {request : Except Refusal Command}
    (noProduct : ∀ command, request = .ok command → command.IsRun) :
    (sessionOf s request).ReadOnly := by
  rcases request with (_ | text) | command
  · exact .finish false
  · exact .print fun _ => .finish true
  · obtain ⟨path, options, rfl⟩ := noProduct command rfl
    exact readOnly_runSession s.fuel path options

/-- Arguments that are used wrongly show nothing. -/
theorem shown_of_wrong_usage {Files Screen Place : Type} {host : Host Files Screen}
    {view : View Files Screen Place} (lawful : host.Lawful view) {s : Surroundings}
    {world : World Files Screen} {request : Except Refusal Command}
    (failed : (host.perform world (sessionOf s request)).2 = some false)
    (noCommand : ∀ command, request ≠ .ok command) :
    view.shown (host.perform world (sessionOf s request)).1.screen = view.shown world.screen := by
  rcases request with (_ | text) | command
  · exact (lawful.flush world).shown
  · rcases printed : host.print .output world.screen text with ⟨screen, fault⟩
    rw [sessionOf, Host.perform_print printed] at failed
    cases failed
  · exact absurd rfl (noCommand command)

/-- A directory with a listing of two words and a source that does not assemble. -/
def oneOfEach : FileTree :=
  .ofFiles (Text.ascii "/work")
    [(Text.ascii "two.hack", listing #[5, 0xEC10]), (Text.ascii "bad.asm", Text.ascii "@5\nD=\n")]

/-- The surroundings of the commands below. -/
def atWork : Surroundings := { cwd := .ok (Text.ascii "/work"), fuel := 0, display := Symbol.name }

/-- Assemble the source over the listing. -/
def assembleBad : Command :=
  .assemble (Text.ascii "bad.asm") { out := Text.ascii "two.hack" }

/-- Disassemble the listing over the source. -/
def disassembleTwo : Command := .disassemble (Text.ascii "two.hack") (Text.ascii "bad.asm")

/-- The place of a log. -/
def logPlace : List Text := [Text.ascii "log"]

/-- A tree that takes down what is opened, and whose standard output is closed. -/
def loggingHost : Host FileTree (List (Stream × Text)) :=
  { FileTree.host with
    print := fun stream record content =>
      match stream with
      | .output => (record, some ⟨Text.ascii "closed"⟩)
      | .errors => ((stream, content) :: record, none)
    log := fun event world =>
      match event with
      | .opening path => { world with files := world.files.put logPlace path }
      | _ => world }

/-- The files of this host.  The log is one of them. -/
def loggingView : View FileTree (List (Stream × Text)) (List Text) :=
  { FileTree.view with isLog := fun place => place = logPlace }

theorem lawful_loggingHost : loggingHost.Lawful loggingView where
  write := FileTree.lawful_host.write
  output := by
    rintro screen next content fault ⟨⟩
    exact ⟨[], List.nil_prefix, (List.append_nil _).symm, fun accepted => by cases accepted⟩
  errors := by
    rintro screen next content fault ⟨⟩
    exact FileTree.lawful_host.errors rfl
  log := by
    rintro (path | source | ⟨count, path⟩) world
    · refine ⟨fun place other => ?_, rfl⟩
      exact (FileTree.content?_put world.files logPlace path place).trans (if_neg other)
    · exact ⟨fun _ _ => rfl, rfl⟩
    · exact ⟨fun _ _ => rfl, rfl⟩
  flush _ := ⟨fun _ _ => rfl, rfl⟩

theorem printsWhole_loggingHost : loggingHost.PrintsWhole loggingView := by
  rintro screen next content fault ⟨⟩
  rfl

end HackMachine
