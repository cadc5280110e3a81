import KconfigQuery.FileTree.Walk
import KconfigQuery.Path
import KconfigQuery.Program
import KconfigQuery.Settings.Slot

/-! # The environment of a run

What a run takes from the variables of its environment, the directory it works in, and what earlier
readings of settings have left.

The settings file is at the place that `KCONFIG_PROBE_CONFIG` names, if it names an absolute one,
and otherwise below the directory for configurations.  That is in the home directory unless
`XDG_CONFIG_HOME` says otherwise, and a home directory can be told only if it is not too long.

* `settingsFile_of_isAbsolute`   a settings file that is named needs no home directory
* `resolve_of_isAbsolute`        an absolute path needs no working directory -/

namespace KconfigQuery

/-- The environment of a run. -/
structure Environment where
  /-- `KCONFIG_PROBE_CONFIG`. -/
  settingsFile? : Option String
  /-- `XDG_CONFIG_HOME`. -/
  configHome? : Option String
  /-- The user's home directory: `HOME` or else what the account says. -/
  home : String
  /-- `KDIR`. -/
  kernelDir? : Option String
  /-- Where relative paths start. -/
  workingDir : FileTree.WorkingDir
  /-- The absolute path of the working directory, if it can be told. -/
  workingPath? : Option String
  /-- The items that all lists have in common, left by the settings files read before. -/
  commonItems : List Settings.Slot := []

namespace Environment

/-- The environment with these variables, for an account with this home directory, in a working
    directory of this absolute path. -/
def ofVariables (valueOf : String → Option String) (accountHome workingPath : String) :
    Environment where
  settingsFile? := valueOf "KCONFIG_PROBE_CONFIG"
  configHome? := valueOf "XDG_CONFIG_HOME"
  home := (valueOf "HOME").getD accountHome
  kernelDir? := valueOf "KDIR"
  workingDir := .at (FileTree.steps workingPath)
  workingPath? := some workingPath

/-- A path counts only if it is absolute. -/
def absolute? (path? : Option String) : Option String :=
  path?.filter Path.isAbsolute

/-- The greatest size of a home directory's path that can be told, in bytes. -/
def maxHomeSize : Nat := 4095

/-- The home directory. -/
def homeDir (env : Environment) : Except FileError String :=
  if env.home.utf8ByteSize ≤ maxHomeSize then .ok env.home
  else .error ⟨.noBufferSpace, .findHomeDirectory, ""⟩

/-- The directory for the configurations of programs. -/
def configHome (env : Environment) : Except FileError String :=
  match absolute? env.configHome? with
  | some path => .ok path
  | none => env.homeDir.map fun home => Path.join [home, ".config"]

/-- The directory for the program's configuration. -/
def configDir (env : Environment) : Except FileError String :=
  env.configHome.map fun home => Path.join [home, Program.name]

/-- The settings file where nothing else is said. -/
def defaultSettingsFile (env : Environment) : Except FileError String :=
  env.configDir.map fun dir => Path.join [dir, "config"]

/-- The settings file. -/
def settingsFile (env : Environment) : Except FileError String :=
  match absolute? env.settingsFile? with
  | some path => .ok path
  | none => env.defaultSettingsFile

/-- An absolute path that the environment gives is where the settings file is. -/
theorem settingsFile_of_isAbsolute {env : Environment} {path : String}
    (hp : env.settingsFile? = some path) (ha : Path.isAbsolute path) :
    env.settingsFile = .ok path := by
  simp [settingsFile, absolute?, hp, Option.filter, ha]

/-- The absolute path that a path names.  The working directory's is needed for a relative one
    only. -/
def resolve (env : Environment) (path : String) : Except FileError String :=
  if Path.isAbsolute path then .ok (Path.resolve "/" path)
  else
    match env.workingPath? with
    | some workingPath => .ok (Path.resolve workingPath path)
    | none => .error ⟨.notFound, .findWorkingDirectory, ""⟩

/-- An absolute path is resolved without the working directory, which may be missing. -/
theorem resolve_of_isAbsolute (env : Environment) {path : String} (h : Path.isAbsolute path) :
    env.resolve path = .ok (Path.resolve "/" path) := by
  simp [resolve, h]

end Environment

end KconfigQuery
