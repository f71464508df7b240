import HackMachine.Proofs.Files.Tree

/-!
# Hosts

A session leaves open what answers its requests.  `Host.Lawful` says what is assumed of a host, and it
is not much.

* A file is written completely, or the request is refused without effect.  What is refused, and why,
  is the host's own affair; a file may be protected or a disk full.
* What is printed is added to what has been shown.  If a print is refused, some of the text may have
  been shown.  What goes to the error stream does not show on the standard output.
* The log is kept at certain places, and touches no file at any other; it may also be printed, but
  not on the standard output.  Where there is no log, there are no such places.

`Tells` describes how the world changes as long as no file is written: only the log is told, and texts
are printed.  Then all files stay as they are, except for the log (`Lawful.unchanged`).  If nothing is
printed on the standard output, nothing shows there either (`Lawful.shown`).

A file tree is such a host (`FileTree.lawful_host`).
-/

namespace HackMachine

/-- How the files and the screen of a host are looked at.  `Place` is where a file can be. -/
structure View (Files Screen Place : Type) where
  /-- The content of the file at a place. -/
  content? : Files → Place → Option Text
  /-- The place that a path leads to. -/
  place? : Files → Text → Option Place
  /-- The places of the log. -/
  isLog : Place → Prop
  /-- What has been printed on the standard output. -/
  shown : Screen → Text

namespace View

variable {Files Screen Place : Type} (view : View Files Screen Place)

/-- All files but the log have the same content. -/
def Unchanged (files after : Files) : Prop :=
  ∀ place, ¬ view.isLog place → view.content? after place = view.content? files place

/-- All files but the log have the same content, and nothing more has been shown. -/
structure Untouched (world after : World Files Screen) : Prop where
  files : view.Unchanged world.files after.files
  shown : view.shown after.screen = view.shown world.screen

end View

namespace Host

variable {Files Screen Place : Type}

/-- What is assumed of a host. -/
structure Lawful (host : Host Files Screen) (view : View Files Screen Place) : Prop where
  /-- What is written becomes all of the file that the path leads to, and other files stay as they
  are. -/
  write {files after : Files} {path content : Text}
    (written : host.write files path content = .ok after) :
    ∃ place, view.place? files path = some place ∧ view.content? after place = some content ∧
      ∀ other, other ≠ place → view.content? after other = view.content? files other
  /-- What is printed is shown completely, or up to some point if the print is refused. -/
  output {screen next : Screen} {content : Text} {fault : Option PrintFault}
    (printed : host.print .output screen content = (next, fault)) :
    ∃ part, part <+: content ∧ view.shown next = view.shown screen ++ part ∧
      (fault = none → part = content)
  /-- Errors are shown elsewhere. -/
  errors {screen next : Screen} {content : Text} {fault : Option PrintFault}
    (printed : host.print .errors screen content = (next, fault)) :
    view.shown next = view.shown screen
  /-- The log is kept at its places only, and elsewhere than on the standard output. -/
  log (event : LogEvent) (world : World Files Screen) : view.Untouched world (host.log event world)
  /-- So it is when the log is completed. -/
  flush (world : World Files Screen) : view.Untouched world (host.flush world)

/-- A text that is not shown completely is not shown at all. -/
def PrintsWhole (host : Host Files Screen) (view : View Files Screen Place) : Prop :=
  ∀ {screen next : Screen} {content : Text} {fault : PrintFault},
    host.print .output screen content = (next, some fault) → view.shown next = view.shown screen

/-! ## Telling -/

/-- The worlds that come after `world` when nothing is done but to tell the log, and to print on some
streams. -/
inductive Tells (host : Host Files Screen) (streams : Stream → Prop) (world : World Files Screen) :
    World Files Screen → Prop where
  | start : Tells host streams world world
  | log {before : World Files Screen} (event : LogEvent) (earlier : Tells host streams world before) :
      Tells host streams world (host.log event before)
  | flush {before : World Files Screen} (earlier : Tells host streams world before) :
      Tells host streams world (host.flush before)
  | print {before : World Files Screen} {stream : Stream} {content : Text} {next : Screen}
      {fault : Option PrintFault} (allowed : streams stream)
      (earlier : Tells host streams world before)
      (printed : host.print stream before.screen content = (next, fault)) :
      Tells host streams world { before with screen := next }

/-- Nothing has been written. -/
abbrev WritesNothing (host : Host Files Screen) : World Files Screen → World Files Screen → Prop :=
  host.Tells fun _ => True

/-- Nothing has been written, and nothing printed but errors. -/
abbrev Quiet (host : Host Files Screen) : World Files Screen → World Files Screen → Prop :=
  host.Tells fun stream => stream = .errors

variable {host : Host Files Screen} {view : View Files Screen Place} {streams : Stream → Prop}
  {world before after : World Files Screen}

theorem Tells.trans (first : host.Tells streams world before)
    (second : host.Tells streams before after) : host.Tells streams world after := by
  induction second with
  | start => exact first
  | log event _ ih => exact ih.log event
  | flush _ ih => exact ih.flush
  | print allowed _ printed ih => exact ih.print allowed printed

theorem Tells.writesNothing (tells : host.Tells streams world after) :
    host.WritesNothing world after := by
  induction tells with
  | start => exact .start
  | log event _ ih => exact ih.log event
  | flush _ ih => exact ih.flush
  | print _ _ printed ih => exact ih.print trivial printed

theorem Lawful.unchanged (lawful : host.Lawful view) (tells : host.Tells streams world after) :
    view.Unchanged world.files after.files := by
  induction tells with
  | start => exact fun _ _ => rfl
  | log event _ ih =>
    exact fun place other => ((lawful.log event _).files place other).trans (ih place other)
  | flush _ ih => exact fun place other => ((lawful.flush _).files place other).trans (ih place other)
  | print _ _ _ ih => exact ih

theorem Lawful.shown (lawful : host.Lawful view) (quiet : host.Quiet world after) :
    view.shown after.screen = view.shown world.screen := by
  induction quiet with
  | start => rfl
  | log event _ ih => exact (lawful.log event _).shown.trans ih
  | flush _ ih => exact (lawful.flush _).shown.trans ih
  | print isErrors _ printed ih =>
    subst isErrors
    exact (lawful.errors printed).trans ih

/-- A text that is printed between quiet times is all that is shown. -/
theorem Lawful.exists_part (lawful : host.Lawful view) {content : Text} {next : Screen}
    {fault : Option PrintFault} (earlier : host.Quiet world before)
    (printed : host.print .output before.screen content = (next, fault))
    (later : host.Quiet { before with screen := next } after) :
    ∃ part, part <+: content ∧ view.shown after.screen = view.shown world.screen ++ part ∧
      (fault = none → part = content) := by
  obtain ⟨part, isPart, grown, whole⟩ := lawful.output printed
  refine ⟨part, isPart, ?_, whole⟩
  rw [lawful.shown later, grown, lawful.shown earlier]

/-! ## One request -/

section Perform

variable {path content : Text}

theorem perform_write_of_refused {next : Option FileFault → Session} {fault : FileFault}
    (refused : host.write world.files path content = .error fault) :
    host.perform world (.write path content next) = host.perform world (next (some fault)) := by
  rw [perform, refused]

theorem perform_write_of_written {next : Option FileFault → Session} {files : Files}
    (written : host.write world.files path content = .ok files) :
    host.perform world (.write path content next) =
      host.perform { world with files := files } (next none) := by
  rw [perform, written]

theorem perform_print {stream : Stream} {next : Option PrintFault → Session} {screen : Screen}
    {fault : Option PrintFault} (printed : host.print stream world.screen content = (screen, fault)) :
    host.perform world (.print stream content next) =
      host.perform { world with screen := screen } (next fault) := by
  rw [perform, printed]

end Perform

end Host

/-! ## Sessions that write no file -/

namespace Session

/-- What one print keeps of a session is kept when texts are printed one after the other. -/
theorem printAll_of {P : Session → Prop} {stream : Stream}
    (keeps : ∀ content next, P next → P (.print stream content fun _ => next)) (texts : List Text)
    {next : Session} (later : P next) : P (printAll stream texts next) := by
  induction texts with
  | nil => exact later
  | cons content texts ih => exact keeps content _ ih

/-- The session writes no file. -/
inductive ReadOnly : Session → Prop where
  | finish (succeeded : Bool) : ReadOnly (.finish succeeded)
  | unfinished : ReadOnly .unfinished
  | read {path : Text} {next : Except FileFault Text → Session}
      (later : ∀ answer, ReadOnly (next answer)) : ReadOnly (.read path next)
  | print {stream : Stream} {content : Text} {next : Option PrintFault → Session}
      (later : ∀ fault, ReadOnly (next fault)) : ReadOnly (.print stream content next)
  | log {event : LogEvent} {next : Session} (later : ReadOnly next) : ReadOnly (.log event next)

theorem readOnly_printAll (stream : Stream) (texts : List Text) {next : Session}
    (later : next.ReadOnly) : (printAll stream texts next).ReadOnly :=
  printAll_of (fun _ _ readOnly => .print fun _ => readOnly) texts later

end Session

theorem Host.writesNothing_of_readOnly {Files Screen : Type} (host : Host Files Screen)
    {session : Session} (readOnly : session.ReadOnly) (world : World Files Screen) :
    host.WritesNothing world (host.perform world session).1 := by
  induction readOnly generalizing world with
  | finish succeeded => exact .flush .start
  | unfinished => exact .start
  | read _ ih => exact ih _ world
  | @print stream content _ _ ih =>
    rcases printed : host.print stream world.screen content with ⟨screen, fault⟩
    rw [perform_print printed]
    exact (Tells.start.print trivial printed).trans (ih fault { world with screen := screen })
  | @log event _ _ ih => exact (Tells.start.log event).trans (ih (host.log event world))

/-! ## Trees -/

namespace FileTree

variable {tree after : FileTree} {path : Text}

/-- The place below the top that a path leads to. -/
def place? (tree : FileTree) (path : Text) : Option (List Text) :=
  match tree.locate path with
  | .ok (.inside parts) => some parts
  | _ => none

theorem place?_of_locate {parts : List Text} (located : tree.locate path = .ok (.inside parts)) :
    tree.place? path = some parts := by
  rw [place?, located]

/-- The files of a tree, and the record of what has been printed.  There is no log. -/
def view : View FileTree (List (Stream × Text)) (List Text) where
  content? := content?
  place? := place?
  isLog _ := False
  shown := Stream.output.printed

theorem printed_cons (stream : Stream) (entry : Stream × Text) (record : List (Stream × Text)) :
    stream.printed (entry :: record) =
      stream.printed record ++ if entry.1 = stream then entry.2 else [] := by
  by_cases same : entry.1 = stream
  · simp [Stream.printed, List.filter_append, same]
  · simp [Stream.printed, List.filter_append, same]

theorem lawful_host : host.Lawful view where
  write := by
    intro tree after path content written
    obtain ⟨parts, located, -, -, rfl⟩ := exists_put_of_write written
    refine ⟨parts, place?_of_locate located, ?_, fun other apart => ?_⟩
    · exact (content?_put tree parts content parts).trans (if_pos rfl)
    · exact (content?_put tree parts content other).trans (if_neg apart)
  output := by
    rintro screen next content fault ⟨⟩
    exact ⟨content, List.prefix_rfl, printed_cons .output (.output, content) screen, fun _ => rfl⟩
  errors := by
    rintro screen next content fault ⟨⟩
    exact (printed_cons .output (.errors, content) screen).trans (List.append_nil _)
  log _ _ := ⟨fun _ _ => rfl, rfl⟩
  flush _ := ⟨fun _ _ => rfl, rfl⟩

theorem printsWhole_host : host.PrintsWhole view := by
  rintro screen next content fault ⟨⟩

/-- Without a log nothing changes. -/
theorem files_of_tells {streams : Stream → Prop}
    {world world' : World FileTree (List (Stream × Text))}
    (tells : host.Tells streams world world') : world'.files = world.files := by
  induction tells with
  | start => rfl
  | log _ _ ih => exact ih
  | flush _ ih => exact ih
  | print _ _ _ ih => exact ih

/-- The report of a session that ends. -/
theorem perform_of_host {session : Session} {record : List (Stream × Text)} {succeeded : Bool}
    (performed : host.perform ⟨tree, []⟩ session = (⟨after, record⟩, some succeeded)) :
    tree.perform session =
      (after, some ⟨Stream.output.printed record, Stream.errors.printed record, succeeded⟩) := by
  rw [perform, performed]
  rfl

/-- Texts that are printed one after the other are added to one stream. -/
theorem exists_perform_printAll (tree : FileTree) (record : List (Stream × Text)) (stream : Stream)
    (texts : List Text) (next : Session) :
    ∃ record', host.perform ⟨tree, record⟩ (.printAll stream texts next) =
        host.perform ⟨tree, record'⟩ next ∧
      stream.printed record' = stream.printed record ++ texts.flatten ∧
      ∀ other, other ≠ stream → other.printed record' = other.printed record := by
  induction texts generalizing record with
  | nil => exact ⟨record, rfl, (List.append_nil _).symm, fun _ _ => rfl⟩
  | cons text texts ih =>
    obtain ⟨record', performed, grown, others⟩ := ih ((stream, text) :: record)
    refine ⟨record', performed, ?_, fun other apart => ?_⟩
    · rw [grown, printed_cons, if_pos rfl, List.flatten_cons, List.append_assoc]
    · rw [others other apart, printed_cons, if_neg apart.symm, List.append_nil]

end FileTree
end HackMachine
