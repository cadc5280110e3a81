import KconfigQuery.CommandLine.Run
import KconfigQuery.Text.Utf8

/-! # The program

A run of the program first records what it may look at in a file tree: the settings file, and the
configuration and the architectures of the kernel directory it asks about.  Then the run takes
place on that tree, and at last what it wrote is printed and its change of the settings file is
made.  Nothing is decided here. -/

namespace KconfigQuery

/-! ## Recording files -/

/-- The path of a place. -/
def Place.path (place : Place) : String :=
  "/" ++ "/".intercalate place

/-- What stands at a path, if anything can be told. -/
def nodeAt? (path : String) : IO (Option Node) := do
  let here ← IO.currentDir
  let .ok status ← (here / path).symlinkMetadata.toBaseIO | return none
  match status.type with
  | .dir => return some .directory
  | .symlink => return some (.link (← IO.FS.realPath path).toString)
  | .file =>
    let .ok bytes ← (IO.FS.readBinFile path).toBaseIO | return none
    return some (.file (Text.Utf8.decode bytes.toList))
  | .other => return some .sink

/-- Record what stands on the way along names that lead through no link. -/
def recordDirectly (tree : FileTree) (place : Place) : List String → IO FileTree
  | [] => return tree
  | name :: rest => do
    let next := place ++ [name]
    match ← nodeAt? next.path with
    | some node => recordDirectly (tree.put next node) next rest
    | none => return tree

/-- Record what stands on the way along names from a place. -/
def recordWay (tree : FileTree) (place : Place) : List String → IO FileTree
  | [] => return tree
  | name :: rest => do
    if name = "" ∨ name = "." then recordWay tree place rest
    else if name = ".." then recordWay tree place.dropLast rest
    else
      let next := place ++ [name]
      match ← nodeAt? next.path with
      | some (.link target) =>
        let names := FileTree.steps target
        recordWay (← recordDirectly (tree.put next (.link target)) [] names) names rest
      | some node => recordWay (tree.put next node) next rest
      | none => return tree

/-- Record what stands on the way along a path. -/
def recordPath (env : Environment) (tree : FileTree) (path : String) : IO FileTree :=
  recordWay tree (FileTree.origin env.workingDir.place path) (FileTree.steps path)

/-- The names in a directory; none if it cannot be listed. -/
def namesIn (path : String) : IO (List String) := do
  let here ← IO.currentDir
  let .ok entries ← (here / path).readDir.toBaseIO | return []
  return entries.toList.map (·.fileName)

/-- Record what an inquiry about a kernel directory looks at. -/
def recordKernel (env : Environment) (tree : FileTree) (kernelDir : String) : IO FileTree := do
  let source := Architecture.sourceLink kernelDir
  let archDir := Architecture.directory kernelDir
  let paths := (← namesIn archDir).flatMap fun arch =>
    [Path.join [archDir, arch], Architecture.kconfig kernelDir arch,
      Architecture.kconfig source arch]
  (DotConfig.file kernelDir :: archDir :: source :: paths).foldlM (recordPath env) tree

/-! ## Running -/

/-- The environment of this run. -/
def readEnvironment : IO Environment := do
  let names := ["KCONFIG_PROBE_CONFIG", "XDG_CONFIG_HOME", "HOME", "KDIR"]
  let bindings ← names.filterMapM fun name => do
    return (← IO.getEnv name).map fun value => (name, value)
  return .ofVariables (fun name => bindings.lookup name) "/" (← IO.currentDir).toString

/-- Output is styled on a terminal, unless the user wants none of it. -/
def readPalette : IO Text.Palette := do
  if (← IO.getEnv "NO_COLOR").isNone ∧ (← (← IO.getStdout).isTty) then return .colored
  else return .plain

/-- Write what a run wrote. -/
def emit (event : Output.Event) : IO Unit := do
  let out ← IO.getStdout
  let err ← IO.getStderr
  out.putStr event.out
  err.putStr event.err
  out.flush

/-- Make the change of the settings file that a run made in the tree. -/
def commit (env : Environment) (before after : FileTree) : IO Unit := do
  let .ok path := env.settingsFile | return
  let directory := Path.parent path
  if after.isDirectory env.workingDir directory then
    unless before.isDirectory env.workingDir directory do IO.FS.createDirAll directory
  let .ok text := after.contents env.workingDir path | return
  unless (before.contents env.workingDir path).toOption = some text do
    IO.FS.writeFile path text

end KconfigQuery

open KconfigQuery

def main (arguments : List String) : IO UInt32 := do
  let env ← readEnvironment
  let tree ← recordPath env .empty (env.workingPath?.getD "/")
  let tree ← match env.settingsFile with
    | .ok path => recordPath env tree path
    | .error _ => pure tree
  let host : CommandLine.Host := { palette := ← readPalette, trace? := none, tree, env }
  let tree ← match host.kernelDir? arguments with
    | some kernelDir => recordKernel env tree kernelDir
    | none => pure tree
  let outcome := { host with tree }.run arguments
  outcome.events.forM emit
  commit env tree outcome.tree
  return outcome.exitCode.toUInt32
