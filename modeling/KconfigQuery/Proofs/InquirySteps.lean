import KconfigQuery.Command.Inquiry
import KconfigQuery.Proofs.ArchitectureSearch

/-! # The steps of an inquiry

What an inquiry does is a list of steps: something happens in the store, or a text is printed.  The
steps depend on the files, the kernel directory and the palette, but not on the logger, which only
decides which of them are seen.  So all that is said about the standard output, the exit code or
the files that are looked at is said of the steps, and two loggers are compared by what they show
of one list.

* `start_of_resolve` when a session is started
* `answer_eq`        the answer to an inquiry by its steps
* `run_eq`           the same for a whole run in a session
* `stdout_seen`      what is printed does not depend on the logger
* `stdout_run`       what a whole run prints
* `run_of_failed`    a run without a session -/

namespace KconfigQuery

namespace Output

/-- Something is written to the error output. -/
def Event.isErr : Event → Bool
  | diagnostic _ _ => true
  | stderr _ => true
  | _ => false

/-- A file is read, or a directory listed. -/
def Event.isLook : Event → Bool
  | read _ => true
  | list _ => true
  | _ => false

end Output

namespace Store

open DotConfig (Options)

variable (files : FileSystem) (store : Store) (dir : String)

/-- A second query finds what the first one found. -/
@[simp] theorem known_queried :
    known files (queried files store dir) dir = known files store dir := by
  have hkept : (queried files store dir).cache.get? dir = some (known files store dir) := by simp
  exact (outcome_of_cached files hkept).1

/-- A second query does nothing. -/
@[simp] private theorem queryEvents_queried :
    queryEvents files (queried files store dir) dir = [] := by
  have hkept : (queried files store dir).cache.get? dir = some (known files store dir) := by simp
  exact (outcome_of_cached files hkept).2.2

/-- An empty store knows what the file gives. -/
@[simp] theorem known_empty : known files .empty dir = current files dir := rfl

/-- The first query of a store reads the file. -/
@[simp] theorem queryEvents_empty : queryEvents files .empty dir = readingEvents files dir := rfl

end Store

/-! ## Starting a session -/

namespace Session

variable {tree : FileTree} {env : Environment} (flags : SessionFlags)

/-- Settings that cannot be loaded stop the start of a session. -/
theorem start_of_load_error {error : Settings.Error}
    (h : Settings.load tree env .empty false = .error error) :
    start tree env flags = .error error := by
  simp [start, h]

/-- So does a kernel directory whose place cannot be told. -/
theorem start_of_resolve_error {settings : Settings} {error : FileError}
    (h : Settings.load tree env .empty false = .ok settings)
    (hdir : resolveKernelDir env flags.kdir? settings.kdir? = .error error) :
    start tree env flags = .error (.file error) := by
  simp [start, h, hdir]

/-- In all other cases there is a session. -/
theorem start_of_resolve {settings : Settings} {dir : String}
    (h : Settings.load tree env .empty false = .ok settings)
    (hdir : resolveKernelDir env flags.kdir? settings.kdir? = .ok dir) :
    start tree env flags = .ok ⟨dir, .console (flags.verbose || settings.verbose)⟩ := by
  simp [start, h, hdir]

end Session

namespace Inquiry

open Output (Event)
open Store (current readingEvents known queried queryEvents)

/-! ## Steps -/

/-- A step of an inquiry. -/
inductive Step where
  | inStore (event : Store.Event)
  | print (text : String)

/-- What is seen of a step. -/
def Step.seen? (palette : Text.Palette) (logger : Log.Logger) : Step → Option Event
  | inStore event => Event.ofStore? palette logger event
  | print text => some (.stdout text)

/-- The text that a step prints. -/
def Step.text : Step → String
  | inStore _ => ""
  | print text => text

/-- What is seen of steps. -/
def seen (palette : Text.Palette) (logger : Log.Logger) (steps : List Step) : List Event :=
  steps.filterMap (Step.seen? palette logger)

/-- A line is printed. -/
def Step.line (text : String) : Step := print (text ++ "\n")

section Seen

variable (palette : Text.Palette) (logger : Log.Logger)

@[simp] theorem seen_nil : seen palette logger [] = [] := rfl

@[simp] theorem seen_append (steps more : List Step) :
    seen palette logger (steps ++ more) = seen palette logger steps ++ seen palette logger more :=
  List.filterMap_append

@[simp] private theorem seen_print (text : String) (steps : List Step) :
    seen palette logger (.print text :: steps) = .stdout text :: seen palette logger steps := rfl

@[simp] theorem seen_line (text : String) (steps : List Step) :
    seen palette logger (.line text :: steps) = .line text :: seen palette logger steps := rfl

/-- Printed texts are seen whatever the logger. -/
private theorem seen_prints (texts : List String) :
    seen palette logger (texts.map .print) = texts.map .stdout := by
  induction texts with
  | nil => rfl
  | cons text texts ih => rw [List.map_cons, seen_print, ih, List.map_cons]

/-- Printed lines are seen whatever the logger. -/
private theorem seen_lines {α : Type} (f : α → String) (items : List α) :
    seen palette logger (items.map fun item => .line (f item)) =
      items.map fun item => .line (f item) := by
  -- A line is a text with its end.
  have hprints := seen_prints palette logger (items.map fun item => f item ++ "\n")
  rw [List.map_map, List.map_map] at hprints
  exact hprints

end Seen

/-- What happens in the store is seen as the context shows it. -/
@[simp] private theorem seen_inStore (context : Context) (events : List Store.Event) :
    seen context.palette context.session.logger (events.map .inStore) = context.shown events :=
  List.filterMap_map

/-! ### What is printed -/

/-- All that steps print. -/
def printed (steps : List Step) : String :=
  String.join (steps.map Step.text)

@[simp] theorem printed_nil : printed [] = "" := rfl

@[simp] theorem printed_append (steps more : List Step) :
    printed (steps ++ more) = printed steps ++ printed more := by
  simp [printed]

@[simp] theorem printed_print (text : String) (steps : List Step) :
    printed (.print text :: steps) = text ++ printed steps := by
  simp [printed, Step.text]

@[simp] theorem printed_line (text : String) (steps : List Step) :
    printed (.line text :: steps) = text ++ "\n" ++ printed steps :=
  printed_print (text ++ "\n") steps

@[simp] private theorem printed_inStore_cons (event : Store.Event) (steps : List Step) :
    printed (.inStore event :: steps) = printed steps := by
  simp [printed, Step.text]

/-- However much happens in the store, nothing is printed. -/
@[simp] theorem printed_inStore (events : List Store.Event) :
    printed (events.map .inStore) = "" := by
  induction events with
  | nil => rfl
  | cons event events ih => rw [List.map_cons, printed_inStore_cons, ih]

/-- Texts that are printed one by one are printed together. -/
private theorem printed_prints (texts : List String) :
    printed (texts.map .print) = String.join texts := by
  induction texts with
  | nil => rfl
  | cons text texts ih => rw [List.map_cons, printed_print, ih, String.join_cons]

/-- Lines that are printed one by one are printed together. -/
theorem printed_lines {α : Type} (f : α → String) (items : List α) :
    printed (items.map fun item => .line (f item)) =
      String.join (items.map fun item => f item ++ "\n") := by
  rw [printed, List.map_map]
  rfl

/-- What is printed does not depend on the logger. -/
theorem stdout_seen (palette : Text.Palette) (logger : Log.Logger) (steps : List Step) :
    Output.stdout (seen palette logger steps) = printed steps := by
  induction steps with
  | nil => rfl
  | cons step steps ih =>
    -- A message is shown or not, but never on the standard output.
    have hone : Output.stdout (seen palette logger [step]) = printed [step] := by
      cases step with
      | print text => simp [Output.stdout, Event.out]
      | inStore event =>
        cases event with
        | log entry =>
          cases hshown : logger.show? palette entry <;>
            simp [seen, Step.seen?, Event.ofStore?, hshown, Output.stdout, Event.out]
        | _ => simp [seen, Step.seen?, Event.ofStore?, Output.stdout, Event.out]
    rw [← List.singleton_append, seen_append, Output.stdout_append, hone, ih, ← printed_append]

/-! ## Answers -/

variable (files : FileSystem) (palette : Text.Palette) (dir : String)

/-- The steps of an answer.  The first question reads the configuration; all that is asked after it
    is answered from what was read. -/
def steps : Inquiry → List Step
  | .get options =>
    (if options = [] then [] else (readingEvents files dir).map .inStore) ++
      options.map fun option =>
        .line (valueLine palette option ((current files dir).get? option))
  | .enabled option quiet =>
    (readingEvents files dir).map .inStore ++
      if quiet then []
      else [.line (enabledLine palette option (DotConfig.builtIn (current files dir) option))]
  | .arch =>
    (Store.empty.architecture files dir).events.map .inStore ++
      (Store.empty.architecture files dir).answer.toList.map .line
  | .list filter =>
    (readingEvents files dir).map .inStore ++
      (listed filter (current files dir)).map fun entry => .line (DotConfig.renderEntry entry)
  | .info =>
    let arch := (queried files .empty dir).architecture files dir
    (readingEvents files dir).map .inStore ++ arch.events.map .inStore ++
      [.print (summary palette dir (current files dir) arch.answer),
        .print (Output.outro (verdict palette (namedArch? arch.answer)))]

/-- The exit code of an answer. -/
def exitCode : Inquiry → Nat
  | .enabled option _ => if DotConfig.builtIn (current files dir) option then 0 else 1
  | .arch => if (Store.empty.architecture files dir).answer.isSome then 0 else 1
  | _ => 0

/-- The options are shown one by one, and the directory is read for the first one only. -/
private theorem getOptions_eq (context : Context) (options : List String) (store : Store) :
    getOptions context options store =
      (if options = [] then []
        else context.shown (queryEvents context.files store context.session.kernelDir)) ++
        options.map fun option => .line (valueLine context.palette option
          ((known context.files store context.session.kernelDir).get? option)) := by
  -- The first option asks the store, and the others find its directory kept.
  induction options generalizing store with
  | nil => rfl
  | cons option rest ih =>
    -- After the first option the directory is kept, so nothing happens in the store.
    have hlater : context.shown [] = [] := rfl
    simp [getOptions, Store.value?, Store.Reply.map, Store.query_eq, ih, hlater]

/-- An answer is what is seen of its steps, with its exit code. -/
theorem answer_eq (context : Context) (inquiry : Inquiry) :
    inquiry.answer context =
      (seen context.palette context.session.logger
          (inquiry.steps context.files context.palette context.session.kernelDir),
        inquiry.exitCode context.files context.session.kernelDir) := by
  -- Only `get` asks more than once before it answers; that is `getOptions_eq`.
  cases inquiry with
  | get options =>
    by_cases hnone : options = [] <;>
      simp [answer, getOptions_eq, steps, seen_lines, exitCode, hnone]
  | enabled option quiet =>
    cases quiet <;> simp [answer, Store.isEnabled_eq, steps, exitCode]
  | arch =>
    cases harch : (Store.empty.architecture context.files context.session.kernelDir).answer <;>
      simp [answer, harch, steps, exitCode]
  | list filter => simp [answer, Store.query_eq, steps, seen_lines, exitCode]
  | info =>
    -- Two things are asked of the store, and what is seen of both is seen one after the other.
    have happ : ∀ events more : List Store.Event,
        context.shown (events ++ more) = context.shown events ++ context.shown more :=
      fun events more => List.filterMap_append
    simp [answer, Store.query_eq, steps, exitCode, happ]

/-! ## Runs -/

/-- The texts that an inquiry prints before it asks anything. -/
def openingTexts : Inquiry → List String
  | .info => [Output.intro (palette.paint .bold (Program.name ++ " info"))]
  | _ => []

/-- The steps of a whole run in a session: the opening, the first message, and the answer. -/
def runSteps (inquiry : Inquiry) : List Step :=
  (inquiry.openingTexts palette).map .print ++
    .inStore (.debug ("Kernel directory: " ++ dir)) :: inquiry.steps files palette dir

variable {palette}

theorem opening_eq (inquiry : Inquiry) :
    inquiry.opening palette = (inquiry.openingTexts palette).map .stdout := by
  cases inquiry <;> rfl

variable {trace? : Option String} {tree : FileTree} {env : Environment} {flags : SessionFlags}

/-- A run in a session is what is seen of its steps, with its exit code, and changes nothing. -/
theorem run_eq {session : Session} (h : Session.start tree env flags = .ok session)
    (inquiry : Inquiry) :
    inquiry.run palette trace? tree env flags =
      { events := seen palette session.logger
          (inquiry.runSteps (tree.fileSystem env.workingDir) palette session.kernelDir)
        exitCode := inquiry.exitCode (tree.fileSystem env.workingDir) session.kernelDir
        tree } := by
  -- The first message is about the kernel directory, before anything is asked.
  have hfirst : ∀ rest, seen palette session.logger
      (.inStore (.debug ("Kernel directory: " ++ session.kernelDir)) :: rest) =
        session.shown palette [.log session.openingEntry] ++ seen palette session.logger rest :=
    fun rest => seen_append palette session.logger [_] rest
  rw [run_of_started h]
  simp only [answer_eq, runSteps, seen_append, opening_eq, seen_prints, hfirst, Context.shown,
    List.append_assoc]

/-- What a run in a session prints. -/
theorem stdout_run {session : Session} (h : Session.start tree env flags = .ok session)
    (inquiry : Inquiry) :
    Output.stdout (inquiry.run palette trace? tree env flags).events =
      String.join (inquiry.openingTexts palette) ++
        printed (inquiry.steps (tree.fileSystem env.workingDir) palette session.kernelDir) := by
  rw [run_eq h, stdout_seen, runSteps, printed_append, printed_inStore_cons, printed_prints]

/-- Without a session nothing is asked: the failure is told, and that is all. -/
theorem run_of_failed {error : Settings.Error} (h : Session.start tree env flags = .error error)
    (inquiry : Inquiry) :
    inquiry.run palette trace? tree env flags =
      { events := inquiry.opening palette ++ failed palette (.ofSettings trace? error)
        exitCode := 1
        tree } := by
  simp [run, h]

end Inquiry

end KconfigQuery
