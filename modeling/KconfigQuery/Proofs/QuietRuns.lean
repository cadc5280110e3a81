import Mathlib.Data.List.Basic
import KconfigQuery.Proofs.AskedInquiries

/-! # Quiet runs

A run that is not verbose does what the verbose one does and leaves out the debug messages.  Both
runs take the same steps, and of each step the quiet one shows what the verbose one shows, unless
that is a debug message.  There are three kinds of these.

* `debugMessage_of_mem_runSteps`   the kinds of debug messages
* `seen_quiet`                     what a quiet logger shows of steps
* `Host.run_without_verbose`       two command lines that differ in nothing but verbosity -/

namespace KconfigQuery

/-! ## Debug messages -/

/-- The debug messages of a run: the kernel directory, how many options were parsed, and entries
    without `Kconfig`. -/
inductive DebugMessage (dir : String) : String → Prop
  | kernelDir : DebugMessage dir ("Kernel directory: " ++ dir)
  | parsed (count : Nat) :
    DebugMessage dir ("Parsed " ++ toString count ++ " options from " ++ Path.join [dir, ".config"])
  | skipped (arch : String) : DebugMessage dir ("Skipping arch/" ++ arch ++ ": no Kconfig")

namespace Store

open Architecture

variable {files : FileSystem} {store : Store} {dir message : String}

/-- A reading has one debug message: how many options were parsed. -/
private theorem debugMessage_of_mem_readingEvents (h : .debug message ∈ readingEvents files dir) :
    DebugMessage dir message := by
  have hentry : readingEntry files dir = ⟨.debug, message⟩ := by
    simpa [readingEvents, Event.debug, eq_comm] using h
  unfold readingEntry at hentry
  split at hentry
  · -- Only a file that could be read has a debug message.
    cases hentry
    exact .parsed _
  · cases hentry

/-- A query has the debug message of its reading, if it reads at all. -/
private theorem debugMessage_of_mem_queryEvents (h : .debug message ∈ queryEvents files store dir) :
    DebugMessage dir message := by
  unfold queryEvents at h
  split at h
  · cases h
  · exact debugMessage_of_mem_readingEvents h

/-- The debug messages of a search are about entries without `Kconfig`. -/
private theorem debugMessage_of_mem_skipEvents {archs : List String}
    (h : .debug message ∈ skipEvents files dir archs) : DebugMessage dir message := by
  obtain ⟨arch, -, heq⟩ := List.mem_map.mp h
  cases heq
  exact .skipped arch

/-- The last word of an inference is an error or nothing, never a debug message. -/
private theorem debug_notMem_verdictEvents (arch? : Option String) :
    .debug message ∉ verdictEvents dir arch? := by
  cases arch? <;> simp [verdictEvents, Event.debug, Event.error]

/-- The debug messages of an inference: those of the search, and of the query if there is one. -/
private theorem debugMessage_of_mem_architecture
    (h : .debug message ∈ (store.architecture files dir).events) : DebugMessage dir message := by
  cases hd : files.isDirectory (directory dir) with
  | false => simp [architecture, hd, Event.debug, Event.error] at h
  | true =>
    cases hl : files.listDirectory (directory dir) with
    | error fault => simp [architecture, hd, hl, Event.debug, Event.error] at h
    | ok entries =>
      -- Skipped entries can come before the query and after it, and the verdict comes last.
      have hlist : Event.debug message ≠ .list (directory dir) := by simp [Event.debug]
      simp only [architecture, hd, hl, if_true, choose_eq, List.mem_cons, List.mem_append, hlist,
        debug_notMem_verdictEvents, false_or, or_false] at h
      rcases h with (hskip | hquery) | hskip
      · exact debugMessage_of_mem_skipEvents hskip
      · exact debugMessage_of_mem_queryEvents hquery
      · exact debugMessage_of_mem_skipEvents hskip

end Store

namespace Inquiry

variable {files : FileSystem} {palette : Text.Palette} {dir message : String}

/-- The debug messages of an inquiry are those of the store. -/
private theorem debugMessage_of_mem_steps {inquiry : Inquiry}
    (h : .inStore (.debug message) ∈ inquiry.steps files palette dir) :
    DebugMessage dir message := by
  have hevents : ∀ events : List Store.Event,
      Step.inStore (.debug message) ∈ events.map Step.inStore ↔ .debug message ∈ events := by
    intro events
    simp [List.mem_map]
  -- A printed line is no message of the store.
  have hlines : ∀ texts : List String, Step.inStore (.debug message) ∉ texts.map Step.line := by
    intro texts hmem
    obtain ⟨text, -, heq⟩ := List.mem_map.mp hmem
    cases heq
  -- What is printed is no message, so the message is one of the store.
  cases inquiry with
  | get options =>
    rw [steps, List.mem_append, ← Function.comp_def Step.line, ← List.map_map] at h
    have hread := h.resolve_right (hlines _)
    split at hread
    · cases hread
    · exact Store.debugMessage_of_mem_readingEvents ((hevents _).mp hread)
  | enabled option quiet =>
    rw [steps, List.mem_append] at h
    refine Store.debugMessage_of_mem_readingEvents ((hevents _).mp (h.resolve_right ?_))
    cases quiet with
    | true => exact List.not_mem_nil
    | false => exact hlines [_]
  | arch =>
    rw [steps, List.mem_append, hevents] at h
    exact Store.debugMessage_of_mem_architecture (h.resolve_right (hlines _))
  | list filter =>
    rw [steps, List.mem_append, hevents, ← Function.comp_def Step.line, ← List.map_map] at h
    exact Store.debugMessage_of_mem_readingEvents (h.resolve_right (hlines _))
  | info =>
    rw [steps, List.mem_append, List.mem_append, hevents, hevents] at h
    rcases h.resolve_right (by simp) with hread | harch
    · exact Store.debugMessage_of_mem_readingEvents hread
    · exact Store.debugMessage_of_mem_architecture harch

/-- **The debug messages of a run** are of three kinds: the kernel directory, how many options were
    parsed, and entries without `Kconfig`. -/
theorem debugMessage_of_mem_runSteps {inquiry : Inquiry}
    (h : .inStore (.debug message) ∈ inquiry.runSteps files palette dir) :
    DebugMessage dir message := by
  rw [runSteps, List.mem_append, List.mem_cons] at h
  -- What is printed at the start, the first message, and the steps of the inquiry itself.
  rcases h with hopening | hfirst | hlater
  · simp at hopening
  · cases hfirst
    exact .kernelDir
  · exact debugMessage_of_mem_steps hlater

end Inquiry

/-! ## What a quiet logger shows -/

namespace Output

/-- A debug message is shown. -/
def Event.isDebug : Event → Bool
  | diagnostic .debug _ => true
  | _ => false

/-- The events without the debug messages. -/
def withoutDebug (events : List Event) : List Event :=
  events.filter fun event => !event.isDebug

/-- Events without a debug message stay as they are. -/
private theorem withoutDebug_eq_self {events : List Event}
    (h : ∀ text, .diagnostic .debug text ∉ events) : withoutDebug events = events := by
  refine List.filter_eq_self.mpr fun event hevent => ?_
  cases event with
  | diagnostic level text =>
    cases level with
    | debug => exact absurd hevent (h text)
    | error => rfl
  | _ => rfl

/-- The standard output does not depend on debug messages. -/
theorem stdout_withoutDebug (events : List Event) :
    stdout (withoutDebug events) = stdout events := by
  induction events with
  | nil => rfl
  | cons event events ih =>
    have hjoin : ∀ more, stdout (event :: more) = event.out ++ stdout more := by
      intro more
      simp [stdout]
    cases hdebug : event.isDebug with
    | false =>
      rw [withoutDebug, List.filter_cons_of_pos (by simp [hdebug]), hjoin, hjoin, ← ih]
      rfl
    | true =>
      -- A debug message is no part of the standard output.
      have hout : event.out = "" := by
        cases event with
        | stdout text => cases hdebug
        | _ => rfl
      rw [withoutDebug, List.filter_cons_of_neg (by simp [hdebug]), hjoin, hout,
        String.empty_append, ← ih]
      rfl

/-- The looks at the kernel tree do not depend on debug messages. -/
theorem filter_isLook_withoutDebug (events : List Event) :
    (withoutDebug events).filter Event.isLook = events.filter Event.isLook := by
  rw [withoutDebug, List.filter_filter]
  refine List.filter_congr fun event _ => ?_
  cases event with
  | diagnostic level text => cases level <;> rfl
  | _ => rfl

/-- Of what is written to the error output the debug messages are missing. -/
theorem filter_isErr_withoutDebug (events : List Event) :
    (withoutDebug events).filter Event.isErr = withoutDebug (events.filter Event.isErr) := by
  rw [withoutDebug, withoutDebug, List.filter_filter, List.filter_filter]
  exact List.filter_congr fun event _ => Bool.and_comm _ _

end Output

namespace Inquiry

open Output (Event withoutDebug)

variable {palette : Text.Palette}

/-- Of each step a quiet logger shows what a verbose one does, unless it is a debug message. -/
theorem seen_quiet (verbose : Bool) (steps : List Step) :
    seen palette (.console false) steps = withoutDebug (seen palette (.console verbose) steps) := by
  rw [seen, seen, withoutDebug, List.filter_filterMap]
  -- Step by step: what is printed is seen by both.
  refine List.filterMap_congr fun step _ => ?_
  cases step with
  | print text => rfl
  | inStore event =>
    cases event with
    | log entry =>
      -- The loggers differ in debug messages, and only if one of them is verbose.
      obtain ⟨level, message⟩ := entry
      cases level <;> cases verbose <;> rfl
    | _ => rfl

/-- What is seen as a debug message was a debug message of the steps, dimmed and with a newline. -/
private theorem exists_debug_of_mem_seen {logger : Log.Logger} {steps : List Step} {text : String}
    (h : .diagnostic .debug text ∈ seen palette logger steps) :
    ∃ message, .inStore (.debug message) ∈ steps ∧ text = palette.paint .dim message ++ "\n" := by
  obtain ⟨step, hstep, hseen⟩ := List.mem_filterMap.mp h
  cases step with
  | print printed => cases hseen
  | inStore event =>
    cases event with
    | log entry =>
      obtain ⟨shown, hshown, heq⟩ := Option.map_eq_some_iff.mp hseen
      obtain ⟨level, message⟩ := entry
      simp only [Event.diagnostic.injEq] at heq
      obtain ⟨rfl, rfl⟩ := heq
      refine ⟨message, hstep, ?_⟩
      -- No logger but a verbose one shows it.
      cases logger with
      | silent => cases hshown
      | console verbose =>
        cases verbose with
        | false => cases hshown
        | true => cases hshown; rfl
    | _ => cases hseen

/-- A session that could not be started has written no debug message. -/
private theorem debug_notMem_failed (inquiry : Inquiry) (failure : Failure) {text : String} :
    .diagnostic .debug text ∉ inquiry.opening palette ++ failed palette failure := by
  cases inquiry <;> simp [opening, failed]

/-! ## Runs -/

variable {trace? : Option String} {tree : FileTree} {env : Environment}
  {quiet loud : SessionFlags}

/-- If the settings are not verbose, a run is quiet unless it is asked to be verbose, and a quiet
    run is a verbose one without its debug messages. -/
private theorem run_quiet (hdir : quiet.kdir? = loud.kdir?) (hquiet : quiet.verbose = false)
    (hstored : ∀ settings, Settings.load tree env .empty false = .ok settings →
      settings.verbose = false) (inquiry : Inquiry) :
    inquiry.run palette trace? tree env quiet =
      { inquiry.run palette trace? tree env loud with
        events := withoutDebug (inquiry.run palette trace? tree env loud).events } := by
  -- Neither session is started: both runs print the same, which is no debug message.
  have hfailed : ∀ error, Session.start tree env quiet = .error error →
      Session.start tree env loud = .error error →
      inquiry.run palette trace? tree env quiet =
        { inquiry.run palette trace? tree env loud with
          events := withoutDebug (inquiry.run palette trace? tree env loud).events } := by
    intro error hq hl
    rw [run_of_failed hq, run_of_failed hl]
    simp only [Output.Outcome.mk.injEq, and_true]
    exact (Output.withoutDebug_eq_self fun text => debug_notMem_failed inquiry _).symm
  -- Both sessions are started alike, and differ in their loggers only.
  cases hload : Settings.load tree env .empty false with
  | error error =>
    exact hfailed error (Session.start_of_load_error _ hload) (Session.start_of_load_error _ hload)
  | ok settings =>
    have hverbose := hstored settings hload
    cases hresolve : Session.resolveKernelDir env loud.kdir? settings.kdir? with
    | error error =>
      exact hfailed (.file error) (Session.start_of_resolve_error _ hload (hdir ▸ hresolve))
        (Session.start_of_resolve_error _ hload hresolve)
    | ok dir =>
      have hq := Session.start_of_resolve quiet hload (hdir ▸ hresolve)
      have hl := Session.start_of_resolve loud hload hresolve
      -- Neither flags nor settings ask for debug messages, so the first logger is quiet.
      rw [hquiet, hverbose, Bool.or_self] at hq
      rw [run_eq hq, run_eq hl]
      simp only [Output.Outcome.mk.injEq, and_true]
      exact seen_quiet _ _

/-- A debug message that is seen is one of the debug messages of a session. -/
private theorem exists_debugMessage_of_mem_run {flags : SessionFlags} {inquiry : Inquiry}
    {text : String}
    (h : .diagnostic .debug text ∈ (inquiry.run palette trace? tree env flags).events) :
    ∃ session message, Session.start tree env flags = .ok session ∧
      DebugMessage session.kernelDir message ∧ text = palette.paint .dim message ++ "\n" := by
  cases hstart : Session.start tree env flags with
  | error error =>
    rw [run_of_failed hstart] at h
    exact absurd h (debug_notMem_failed inquiry _)
  | ok session =>
    rw [run_eq hstart] at h
    obtain ⟨message, hstep, htext⟩ := exists_debug_of_mem_seen h
    exact ⟨session, message, rfl, debugMessage_of_mem_runSteps hstep, htext⟩

end Inquiry

namespace CommandLine

open Output (Event withoutDebug)

/-- A command line that asks for nothing has written no debug message. -/
private theorem Host.debug_notMem_unasked (host : Host) (command : Command) (args : Arguments)
    (text : String) : .diagnostic .debug text ∉ (host.unasked command args).events := by
  -- Either the help is told, or that an argument is missing.
  unfold Host.unasked
  split <;> simp [Host.tell, Host.missing]

/-- To ask for debug messages changes nothing else of what is asked for. -/
theorem Command.agreeExcept_verbose {command : Command} (h : command ≠ .config)
    (rest : List String) :
    (Arguments.read command.flags rest).AgreeExcept "verbose"
      (Arguments.read command.flags ("--verbose" :: rest)) := by
  refine Arguments.agreeExcept_cons "" (by decide) ?_ rest
  cases command with
  | config => exact absurd rfl h
  | _ => rfl

section Runs

variable (host : Host) {command : Command} (hcommand : command ≠ .config)
include hcommand

/-- A debug message that a command line leads to is one of the debug messages of its session. -/
private theorem Host.exists_debugMessage_of_mem_run {rest : List String} {text : String}
    (h : .diagnostic .debug text ∈ (host.run (command.name :: rest)).events) :
    ∃ session message,
      Session.start host.tree host.env (Arguments.read command.flags rest).session = .ok session ∧
        DebugMessage session.kernelDir message ∧
        text = host.palette.paint .dim message ++ "\n" := by
  cases hasked : command.inquiry? (Arguments.read command.flags rest) with
  | some inquiry =>
    rw [host.run_of_inquiry hasked] at h
    exact Inquiry.exists_debugMessage_of_mem_run h
  | none =>
    rw [host.run_of_no_inquiry hcommand hasked] at h
    exact absurd h (host.debug_notMem_unasked command _ _)

variable {quietly loudly : List String}
  (hagree : (Arguments.read command.flags quietly).AgreeExcept "verbose"
    (Arguments.read command.flags loudly))
  (hquiet : (Arguments.read command.flags quietly).isOn "verbose" = false)
  (hstored : ∀ settings, Settings.load host.tree host.env .empty false = .ok settings →
    settings.verbose = false)
include hagree hquiet hstored

/-- Two command lines that agree except on verbosity: the quiet run is the other one without its
    debug messages, with the same exit code and the same tree. -/
private theorem Host.run_quiet :
    host.run (command.name :: quietly) =
      { host.run (command.name :: loudly) with
        events := withoutDebug (host.run (command.name :: loudly)).events } := by
  have hsame := hagree.inquiry (by decide) command
  -- Both command lines ask for the same, or neither asks for anything.
  cases hasked : command.inquiry? (Arguments.read command.flags loudly) with
  | some inquiry =>
    rw [host.run_of_inquiry (hsame.trans hasked), host.run_of_inquiry hasked]
    exact Inquiry.run_quiet (hagree.text "kdir" (by decide)) hquiet hstored inquiry
  | none =>
    have hnone := host.debug_notMem_unasked command (Arguments.read command.flags loudly)
    rw [host.run_of_no_inquiry hcommand (hsame.trans hasked),
      host.run_of_no_inquiry hcommand hasked, hagree.unasked (by decide),
      Output.withoutDebug_eq_self hnone]

end Runs

/-- Two command lines for one command that differ in nothing but verbosity, of which one asks for
    none, where none is stored either.  The quiet run sees and writes what the other one does, in
    the same order, without the debug messages.  So the standard output, the exit code and the
    looks at the kernel tree are the same, and of what is written to the error output the debug
    messages are missing, all of which are among the three kinds. -/
theorem Host.run_without_verbose (host : Host) {command : Command} (hcommand : command ≠ .config)
    {quietly loudly : List String}
    (hagree : (Arguments.read command.flags quietly).AgreeExcept "verbose"
      (Arguments.read command.flags loudly))
    (hquiet : (Arguments.read command.flags quietly).isOn "verbose" = false)
    (hstored : ∀ settings, Settings.load host.tree host.env .empty false = .ok settings →
      settings.verbose = false) :
    let quiet := host.run (command.name :: quietly)
    let loud := host.run (command.name :: loudly)
    quiet.events = withoutDebug loud.events ∧
      quiet.exitCode = loud.exitCode ∧
      Output.stdout quiet.events = Output.stdout loud.events ∧
      quiet.events.filter Event.isLook = loud.events.filter Event.isLook ∧
      quiet.events.filter Event.isErr = withoutDebug (loud.events.filter Event.isErr) ∧
      ∀ text, .diagnostic .debug text ∈ loud.events →
        ∃ session message,
          Session.start host.tree host.env (Arguments.read command.flags loudly).session =
            .ok session ∧
          DebugMessage session.kernelDir message ∧
          text = host.palette.paint .dim message ++ "\n" := by
  intro quiet loud
  have heq : quiet = { loud with events := withoutDebug loud.events } :=
    host.run_quiet hcommand hagree hquiet hstored
  have hevents : quiet.events = withoutDebug loud.events := by rw [heq]
  refine ⟨hevents, by rw [heq], ?_, ?_, ?_,
    fun text => host.exists_debugMessage_of_mem_run hcommand⟩
  · rw [hevents, Output.stdout_withoutDebug]
  · rw [hevents, Output.filter_isLook_withoutDebug]
  · rw [hevents, Output.filter_isErr_withoutDebug]

/-- The kernel directory is told by the verbose run only. -/
theorem Host.run_without_verbose_get :
    let loud := Host.untouched.run ["get", "--verbose", "A"]
    (Host.untouched.run ["get", "A"]).events = withoutDebug loud.events ∧
      .diagnostic .debug "Kernel directory: /\n" ∈ loud.events := by
  have hruns := Host.untouched.run_without_verbose (by decide : Command.get ≠ .config)
    (Command.agreeExcept_verbose (by decide) ["A"]) (by decide)
    (fun settings hsettings => by rw [untouched_load] at hsettings; cases hsettings; rfl)
  refine ⟨hruns.1, ?_⟩
  have hasked : Command.get.inquiry? (Arguments.read Command.get.flags ["--verbose", "A"]) =
      some (.get ["A"]) := by decide
  have hdir : Session.resolveKernelDir Host.untouched.env none none = .ok "/" := by cbv
  have hstart := Session.start_of_resolve
    (Arguments.read Command.get.flags ["--verbose", "A"]).session untouched_load hdir
  have hrun : Host.untouched.run ["get", "--verbose", "A"] = _ :=
    Host.untouched.run_of_inquiry hasked
  rw [hrun, Inquiry.run_eq hstart]
  exact List.mem_cons_self

end CommandLine

end KconfigQuery
