import KconfigQuery.Environment
import KconfigQuery.FileTree.Change
import KconfigQuery.Settings.Document

/-! # Settings in a file tree

Settings are read from the settings file, if it is there, and a change writes the whole file
anew.  The new texts are checked before anything is made or written.

* `tree_change_of_invalid`   a change that is refused leaves the tree as it was -/

namespace KconfigQuery.Settings

/-- Why settings cannot be read or changed. -/
inductive Error where
  | file (error : FileError)
  /-- Something in the settings file keeps it from being read. -/
  | defect (cause : Defect)
  | invalid (problem : Problem)
deriving DecidableEq

/-- The message of an error. -/
def Error.message : Error → String
  | file error => error.message
  | defect cause => cause.message
  | invalid problem => problem.message

/-- The text of the settings file, if there is such a file. -/
def storedText? (tree : FileTree) (env : Environment) : Except FileError (Option String) :=
  match env.settingsFile with
  | .ok path =>
    if tree.isThere env.workingDir path then (tree.contents env.workingDir path).map some
    else .ok none
  | .error error => .error error

/-- The texts in the settings file; none if there is no such file. -/
def stored (tree : FileTree) (env : Environment) : Except Error Raw :=
  match storedText? tree env with
  | .ok (some text) => (Raw.ofText env.commonItems text).mapError .defect
  | .ok none => .ok .empty
  | .error error => .error (.file error)

/-- The environment after the settings have been read. -/
def afterReading (tree : FileTree) (env : Environment) : Environment :=
  match storedText? tree env with
  | .ok (some text) => { env with commonItems := commonItemsAfter env.commonItems text }
  | _ => env

/-- The settings: what is given on the command line comes before what is stored. -/
def load (tree : FileTree) (env : Environment) (given : Raw) (lenient : Bool) :
    Except Error Settings :=
  match stored tree env with
  | .ok raw => ((given.or raw).check lenient).mapError .invalid
  | .error error => .error error

/-- Write a record to a settings file, making its directory if need be. -/
def storeAt (tree : FileTree) (env : Environment) (path : String) (raw : Raw) :
    FileTree.Attempt FileError :=
  let made := tree.makeDirectories env.workingDir (Path.parent path)
  match made.stopped? with
  | some _ => made
  | none =>
    match made.tree.writeFile env.workingDir path raw.render with
    | .ok tree => ⟨tree, none⟩
    | .error error => ⟨made.tree, some error⟩

/-- Write a record to the settings file. -/
def store (tree : FileTree) (env : Environment) (raw : Raw) : FileTree.Attempt FileError :=
  match env.settingsFile with
  | .ok path => storeAt tree env path raw
  | .error error => ⟨tree, some error⟩

/-- Change settings by their names, in order. -/
def change (tree : FileTree) (env : Environment) (pairs : List (String × String)) :
    FileTree.Attempt Error :=
  match stored tree env with
  | .error error => ⟨tree, some error⟩
  | .ok raw =>
    match raw.set pairs with
    | .error problem => ⟨tree, some (.invalid problem)⟩
    | .ok raw => (store tree env raw).mapError .file

/-- A change that is refused leaves the tree as it was. -/
theorem tree_change_of_invalid {tree : FileTree} {env : Environment}
    {pairs : List (String × String)} {problem : Problem}
    (h : (change tree env pairs).stopped? = some (.invalid problem)) :
    (change tree env pairs).tree = tree := by
  unfold change at h ⊢
  split
  · rfl
  · split
    · rfl
    · next heq _ _ hset =>
      simp [heq, hset, FileTree.Attempt.mapError] at h

end KconfigQuery.Settings
