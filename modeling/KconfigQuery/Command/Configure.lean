import KconfigQuery.Output.Frame
import KconfigQuery.Output.Outcome
import KconfigQuery.Failure

/-! # Showing and changing the settings

The command about settings shows them all, shows some of them, or sets them.  Only setting can
change the file tree, and only if all that is to be set is accepted.

* `assignments_eq_error_iff`   arguments are refused exactly when one has no equals sign -/

namespace KconfigQuery

open Output (Event)

/-- What the command about settings is to do. -/
inductive Configure where
  | showAll
  | get (names : List String)
  | set (arguments : List String)
  | other (mode : String)
deriving DecidableEq

namespace Configure

/-- What the arguments ask for.  An empty mode is like none. -/
def ofArguments : List String → Configure
  | [] => showAll
  | mode :: rest =>
    if mode = "" then showAll
    else if mode = "get" then get rest
    else if mode = "set" then set rest
    else other mode

/-- The name and the text that an argument sets. -/
def assignment? (argument : String) : Option (String × String) :=
  (Text.cut? '=' argument.toList).map fun (name, text) =>
    (String.ofList name, String.ofList text)

/-- The names and texts that arguments set, or the first argument that sets nothing. -/
def assignments : List String → Except String (List (String × String))
  | [] => .ok []
  | argument :: rest =>
    match assignment? argument with
    | none => .error argument
    | some pair =>
      match assignments rest with
      | .ok pairs => .ok (pair :: pairs)
      | .error argument => .error argument

/-- The first argument without an equals sign is the one that is told. -/
theorem assignments_eq_error_iff {arguments : List String} {bad : String} :
    assignments arguments = .error bad ↔
      arguments.find? (fun argument => '=' ∉ argument.toList) = some bad := by
  induction arguments with
  | nil => simp [assignments]
  | cons argument rest ih =>
    by_cases h : '=' ∈ argument.toList
    · have hsome : ∃ pair, assignment? argument = some pair := by
        cases hc : Text.cut? '=' argument.toList with
        | none => exact absurd h (Text.cut?_eq_none_iff.mp hc)
        | some sides =>
          exact ⟨(String.ofList sides.1, String.ofList sides.2), by simp [assignment?, hc]⟩
      obtain ⟨pair, hpair⟩ := hsome
      -- It is neither the first one without nor does it change which one is.
      rw [List.find?_cons_of_neg (by simpa using h), ← ih]
      simp only [assignments, hpair]
      split <;> simp_all
    · have hnone : assignment? argument = none := by
        simp [assignment?, Text.cut?_eq_none_iff.mpr h]
      simp [assignments, hnone, h]

/-- A truth value as text. -/
def truthText (value : Bool) : String :=
  if value then "true" else "false"

/-- The text of a setting by its name. -/
def settingText? (settings : Settings) (name : String) : Option String :=
  match Settings.Key.ofName? name with
  | some .kdir => some (settings.kdir?.getD "")
  | some .verbose => some (truthText settings.verbose)
  | none => none

/-- The lines about all settings and the file that they are in. -/
def overview (path : String) (settings : Settings) : List Event := [
  .line ("Settings file: " ++ path),
  .line ("kdir: " ++ settings.kdir?.getD "(not set)"),
  .line ("verbose: " ++ truthText settings.verbose)]

/-- The lines about some settings.  Other names are passed over. -/
def lines (settings : Settings) (names : List String) : List Event :=
  names.filterMap fun name =>
    (settingText? settings name).map fun text => .line (name ++ "=" ++ text)

/-- What doing what is asked comes to. -/
structure Effect where
  /-- The lines to show. -/
  events : List Event
  failure? : Option Failure
  tree : FileTree

/-- Do what is asked. -/
def perform (trace? : Option String) (tree : FileTree) (env : Environment) : Configure → Effect
  | showAll =>
    match Settings.load tree env .empty true, env.settingsFile with
    | .ok settings, .ok path => ⟨overview path settings, none, tree⟩
    | .ok _, .error error => ⟨[], some (.ofSettings trace? (.file error)), tree⟩
    | .error error, _ => ⟨[], some (.ofSettings trace? error), tree⟩
  | get names =>
    match Settings.load tree env .empty true with
    | .ok settings => ⟨lines settings names, none, tree⟩
    | .error error => ⟨[], some (.ofSettings trace? error), tree⟩
  | set arguments =>
    match assignments arguments with
    | .error bad =>
      ⟨[], some (.known ("Invalid setting: " ++ bad ++ " (expected key=value)")), tree⟩
    | .ok pairs =>
      let changed := Settings.change tree env pairs
      ⟨[], changed.stopped?.map (.ofSettings trace?), changed.tree⟩
  | other mode => ⟨[], some (.known ("Invalid mode: " ++ mode)), tree⟩

/-- What is said about a failure. -/
def failed (palette : Text.Palette) (failure : Failure) : List Event :=
  .stderr (Log.failure palette failure.message ++ "\n") :: (failure.report palette).map .stderr

/-- Carry out the command. -/
def run (palette : Text.Palette) (trace? : Option String) (tree : FileTree) (env : Environment)
    (command : Configure) : Output.Outcome :=
  let effect := command.perform trace? tree env
  match effect.failure? with
  | none => { events := effect.events, exitCode := 0, tree := effect.tree }
  | some failure => { events := failed palette failure, exitCode := 1, tree := effect.tree }

end Configure

end KconfigQuery
