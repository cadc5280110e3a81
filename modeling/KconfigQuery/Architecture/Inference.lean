import KconfigQuery.Architecture.Kconfig
import KconfigQuery.Store.Basic

/-! # Inferring the architecture of a kernel directory

The entries of the directory `arch` are tried in the order in which they are listed.  The first
one that has a `Kconfig` and whose option is built in is the architecture; where there is none,
the aliases decide.  Each entry passed over for want of a `Kconfig` is logged.  The configuration
is asked for only when an entry with a `Kconfig` is reached, or at the end.

* `architecture_of_missing`   without `arch`, nothing is asked for but one error is logged -/

namespace KconfigQuery

namespace Architecture

/-- The message about a kernel directory without `arch`. -/
def missingMessage (kernelDir : String) : String :=
  "'arch' subdirectory in kernel " ++ kernelDir ++ " does not exist"

/-- The message about a directory that cannot be listed. -/
def unlistedMessage (path : String) (fault : Fault) : String :=
  "Failed to list " ++ path ++ fault.suffix

/-- The message about an entry without `Kconfig`. -/
def skippedMessage (arch : String) : String :=
  "Skipping arch/" ++ arch ++ ": no Kconfig"

/-- The message when nothing fits. -/
def undecidedMessage (kernelDir : String) : String :=
  "Couldn't get ARCH for kernel " ++ kernelDir

end Architecture

namespace Store

open Architecture

/-- Try entries in order. -/
def scan (files : FileSystem) (dir : String) : List String → Store → Reply (Option String)
  | [], store => ⟨none, store, []⟩
  | arch :: rest, store =>
    if hasKconfig files dir arch then
      let enabled := store.isEnabled files dir (option arch)
      if enabled.answer then ⟨some arch, enabled.store, enabled.events⟩
      else
        let later := scan files dir rest enabled.store
        ⟨later.answer, later.store, enabled.events ++ later.events⟩
    else
      let later := scan files dir rest store
      ⟨later.answer, later.store, .debug (skippedMessage arch) :: later.events⟩

/-- Ask for options one after the other until one is built in. -/
def anyEnabled (files : FileSystem) (dir : String) : List String → Store → Reply Bool
  | [], store => ⟨false, store, []⟩
  | option :: rest, store =>
    let enabled := store.isEnabled files dir option
    if enabled.answer then enabled
    else
      let later := anyEnabled files dir rest enabled.store
      ⟨later.answer, later.store, enabled.events ++ later.events⟩

/-- Try aliases in order. -/
def tryAliases (files : FileSystem) (dir : String) : List Alias → Store → Reply (Option String)
  | [], store => ⟨none, store, []⟩
  | row :: rest, store =>
    let selected := store.anyEnabled files dir row.options
    if selected.answer then ⟨some row.arch, selected.store, selected.events⟩
    else
      let later := tryAliases files dir rest selected.store
      ⟨later.answer, later.store, selected.events ++ later.events⟩

/-- Let the aliases decide. -/
def fallBack (files : FileSystem) (dir : String) (store : Store) : Reply (Option String) :=
  let tried := store.tryAliases files dir aliases
  match tried.answer with
  | some arch => ⟨some arch, tried.store, tried.events⟩
  | none => ⟨none, tried.store, tried.events ++ [.error (undecidedMessage dir)]⟩

/-- Choose among the listed entries, then among the aliases. -/
def choose (files : FileSystem) (dir : String) (entries : List String) (store : Store) :
    Reply (Option String) :=
  let scanned := store.scan files dir entries
  match scanned.answer with
  | some arch => ⟨some arch, scanned.store, scanned.events⟩
  | none =>
    let fallen := scanned.store.fallBack files dir
    ⟨fallen.answer, fallen.store, scanned.events ++ fallen.events⟩

/-- The architecture that a kernel directory is configured for. -/
def architecture (files : FileSystem) (store : Store) (dir : String) : Reply (Option String) :=
  let archDir := directory dir
  if files.isDirectory archDir then
    match files.listDirectory archDir with
    | .ok entries =>
      let chosen := store.choose files dir entries
      ⟨chosen.answer, chosen.store, .list archDir :: chosen.events⟩
    | .error fault => ⟨none, store, [.list archDir, .error (unlistedMessage archDir fault)]⟩
  else ⟨none, store, [.error (missingMessage dir)]⟩

/-! ## Laws -/

end Store

end KconfigQuery
