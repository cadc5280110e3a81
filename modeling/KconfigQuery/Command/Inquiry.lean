import KconfigQuery.Architecture.Inference
import KconfigQuery.FileTree.Read
import KconfigQuery.Output.Frame
import KconfigQuery.Session

/-! # Inquiries about a kernel

An inquiry is a command that asks about the configuration of one kernel directory.  It works in a
session and changes nothing.  Where no session can be started it fails before anything is asked
of the kernel directory.

* `run_of_started`   with a session, an inquiry tells of the session and then gives its answer -/

namespace KconfigQuery

open Output (Event)

/-- Which options are listed. -/
structure ListFilter where
  /-- Only options that are built in. -/
  builtIn : Bool
  /-- Only options whose names start like this. -/
  startingWith : String
deriving DecidableEq

/-- An inquiry about a kernel. -/
inductive Inquiry where
  /-- The values of options. -/
  | get (options : List String)
  /-- Whether an option is built in. -/
  | enabled (option : String) (quiet : Bool)
  /-- The architecture. -/
  | arch
  /-- All options, or some. -/
  | list (filter : ListFilter)
  /-- A summary. -/
  | info
deriving DecidableEq

namespace Inquiry

/-- What an inquiry is carried out with. -/
structure Context where
  palette : Text.Palette
  files : FileSystem
  session : Session

/-- The events of the store as they are seen. -/
def Context.shown (context : Context) (events : List Store.Event) : List Event :=
  context.session.shown context.palette events

/-- The line about an option for which a value was asked. -/
def valueLine (palette : Text.Palette) (option : String) (value? : Option String) : String :=
  match value? with
  | some value => DotConfig.renderEntry (option, value)
  | none => palette.paint .dim ("# " ++ option ++ " is not set")

/-- Give the values of options, one line each. -/
def getOptions (context : Context) : List String → Store → List Event
  | [], _ => []
  | option :: rest, store =>
    let value := store.value? context.files context.session.kernelDir option
    context.shown value.events ++ .line (valueLine context.palette option value.answer) ::
      getOptions context rest value.store

/-- The line that tells whether an option is built in. -/
def enabledLine (palette : Text.Palette) (option : String) (enabled : Bool) : String :=
  if enabled then palette.paint .green "✓" ++ " " ++ option ++ " is enabled"
  else palette.paint .red "✗" ++ " " ++ option ++ " is not enabled"

/-- The option is to be listed. -/
def ListFilter.admits (filter : ListFilter) (entry : String × String) : Bool :=
  (!filter.builtIn || entry.2 == "y") &&
    filter.startingWith.toList.isPrefixOf entry.1.toList

/-- The options that are listed. -/
def listed (filter : ListFilter) (options : DotConfig.Options) : List (String × String) :=
  options.entries.filter (ListFilter.admits filter)

/-- How many options have a value. -/
def count (options : DotConfig.Options) (value : String) : Nat :=
  (options.values.filter (· = value)).length

/-- The summary in a box. -/
def summary (palette : Text.Palette) (kernelDir : String) (options : DotConfig.Options)
    (arch? : Option String) : String :=
  Output.note ("\n".intercalate [
    "Kernel directory: " ++ kernelDir,
    "Config file:      " ++ DotConfig.file kernelDir,
    "Options:          " ++ toString options.size,
    "Built in (=y):    " ++ toString (count options "y"),
    "Modules (=m):     " ++ toString (count options "m"),
    "Architecture:     " ++ arch?.getD (palette.paint .dim "unknown")]) "Kernel config"

/-- The last line of the summary. -/
def verdict (palette : Text.Palette) (arch? : Option String) : String :=
  match arch? with
  | some _ => palette.paint .green "✔" ++ " Done"
  | none => Log.failure palette "Architecture could not be determined"

/-- An architecture's name may be empty in a listing; such a name counts as none in a summary. -/
def namedArch? (arch? : Option String) : Option String :=
  arch?.filter (· ≠ "")

/-- The answer to an inquiry, and the exit code. -/
def answer (context : Context) : Inquiry → List Event × Nat
  | .get options => (getOptions context options .empty, 0)
  | .enabled option quiet =>
    let enabled := Store.empty.isEnabled context.files context.session.kernelDir option
    let said := if quiet then [] else [.line (enabledLine context.palette option enabled.answer)]
    (context.shown enabled.events ++ said, if enabled.answer then 0 else 1)
  | .arch =>
    let arch := Store.empty.architecture context.files context.session.kernelDir
    match arch.answer with
    | some name => (context.shown arch.events ++ [.line name], 0)
    | none => (context.shown arch.events, 1)
  | .list filter =>
    let options := Store.empty.query context.files context.session.kernelDir
    (context.shown options.events ++
      (listed filter options.answer).map fun entry => .line (DotConfig.renderEntry entry), 0)
  | .info =>
    let dir := context.session.kernelDir
    let options := Store.empty.query context.files dir
    let arch := options.store.architecture context.files dir
    (context.shown (options.events ++ arch.events) ++
      [.stdout (summary context.palette dir options.answer arch.answer),
        .stdout (Output.outro (verdict context.palette (namedArch? arch.answer)))], 0)

/-- What an inquiry says before anything else. -/
def opening (palette : Text.Palette) : Inquiry → List Event
  | .info => [.stdout (Output.intro (palette.paint .bold (Program.name ++ " info")))]
  | _ => []

/-- What is said when no session can be started. -/
def failed (palette : Text.Palette) (failure : Failure) : List Event :=
  .stdout (Output.outro (Log.failure palette failure.message)) ::
    (failure.report palette).map .stderr

/-- Carry out an inquiry. -/
def run (palette : Text.Palette) (trace? : Option String) (tree : FileTree) (env : Environment)
    (flags : SessionFlags) (inquiry : Inquiry) : Output.Outcome :=
  match Session.start tree env flags with
  | .error error =>
    { events := inquiry.opening palette ++ failed palette (.ofSettings trace? error)
      exitCode := 1
      tree }
  | .ok session =>
    let context : Context := { palette, files := tree.fileSystem env.workingDir, session }
    let (events, exitCode) := inquiry.answer context
    { events := inquiry.opening palette ++ context.shown [.log session.openingEntry] ++ events
      exitCode
      tree }

/-- A run whose session is started opens, tells the kernel directory and answers; the tree stays. -/
theorem run_of_started {palette : Text.Palette} {trace? : Option String} {tree : FileTree}
    {env : Environment} {flags : SessionFlags} {session : Session}
    (h : Session.start tree env flags = .ok session) (inquiry : Inquiry) :
    let context : Context := { palette, files := tree.fileSystem env.workingDir, session }
    inquiry.run palette trace? tree env flags =
      { events := inquiry.opening palette ++ context.shown [.log session.openingEntry] ++
          (inquiry.answer context).1
        exitCode := (inquiry.answer context).2
        tree } := by
  simp [run, h]

end Inquiry

end KconfigQuery
