import KconfigQuery.FileTree.Read

/-! # Changing a file tree

Making directories, writing files and removing what is there.  A single change that fails gives
an error and no tree.  An `Attempt` at several changes may stop half-way; what was changed before
stays changed.

* `makeDirectories_of_isDirectory`   where the directory is there already, nothing changes -/

namespace KconfigQuery.FileTree

/-- The tree after changes, and why they stopped if they did. -/
structure Attempt (ε : Type) where
  tree : FileTree
  stopped? : Option ε

/-- The same attempt with the error seen in another way. -/
def Attempt.mapError {ε δ : Type} (f : ε → δ) (attempt : Attempt ε) : Attempt δ :=
  ⟨attempt.tree, attempt.stopped?.map f⟩

/-! ## Directories -/

/-- Make one directory, whose parent has to be there.  A slash at the end of the path does not
    count, and a link in its place is not followed. -/
def makeDirectory (tree : FileTree) (workingDir : WorkingDir) (path : String) :
    Except FileError.Cause FileTree :=
  match tree.follow workingDir .entry path ((steps path).filter (· ≠ "")) with
  | .ok (.vacant directory name _) => .ok (tree.put (directory ++ [name]) .directory)
  | .ok (.found ..) | .ok .removed => .error .alreadyExists
  | .error cause => .error cause

/-- The paths around a path, from the inside: each is the text before the last slash of the one
    before. -/
def enclosing (path : String) : List String :=
  let pieces := Text.pieces '/' path.toList
  (List.range (pieces.length - 1)).map fun n =>
    String.ofList (Text.joinPieces '/' (pieces.take (pieces.length - 1 - n)))

/-- What stands against taking what is at a path for the directory wanted there: nothing, if it
    is a directory.  Otherwise the cause depends on whether the directory was wanted for its own
    sake or for another one inside. -/
def objection? (tree : FileTree) (workingDir : WorkingDir) (forAnother : Bool) (path : String) :
    Option FileError.Cause :=
  match tree.lookUp workingDir .node path with
  | .ok .directory => none
  | .ok _ => some (if forAnother then .notDirectory else .alreadyExists)
  | .error cause => some (if forAnother then .notDirectory else cause)

/-- Make a directory or accept one that is there. -/
def ensureDirectory (tree : FileTree) (workingDir : WorkingDir) (forAnother : Bool)
    (path : String) : Attempt FileError :=
  let stopped (cause : FileError.Cause) : FileError := ⟨cause, .makeDirectory, path⟩
  match tree.makeDirectory workingDir path with
  | .ok tree => ⟨tree, none⟩
  | .error .alreadyExists => ⟨tree, (tree.objection? workingDir forAnother path).map stopped⟩
  | .error cause => ⟨tree, some (stopped cause)⟩

/-- Make a directory; where its parent is missing, first make that one, the first of the paths
    around it. -/
def ensureChain (tree : FileTree) (workingDir : WorkingDir) (forAnother : Bool) (path : String) :
    List String → Attempt FileError
  | [] => tree.ensureDirectory workingDir forAnother path
  | parent :: outer =>
    match tree.makeDirectory workingDir path with
    | .error .notFound =>
      let attempt := tree.ensureChain workingDir true parent outer
      match attempt.stopped? with
      | none => attempt.tree.ensureDirectory workingDir forAnother path
      | some _ => attempt
    | _ => tree.ensureDirectory workingDir forAnother path

/-- Make a directory together with the missing ones around it.  An error names the directory
    that could not be made. -/
def makeDirectories (tree : FileTree) (workingDir : WorkingDir) (path : String) :
    Attempt FileError :=
  tree.ensureChain workingDir false path (enclosing path)

/-- Where something stands at the path and leads to a directory, nothing is to be done. -/
theorem makeDirectories_of_isDirectory {tree : FileTree} {workingDir : WorkingDir} {path : String}
    (hm : tree.makeDirectory workingDir path = .error .alreadyExists)
    (hd : tree.lookUp workingDir .node path = .ok .directory) :
    tree.makeDirectories workingDir path = ⟨tree, none⟩ := by
  have hensure : tree.ensureDirectory workingDir false path = ⟨tree, none⟩ := by
    simp [ensureDirectory, hm, objection?, hd]
  unfold makeDirectories ensureChain
  split
  · exact hensure
  · rw [hm]; exact hensure

/-! ## Files and links -/

/-- Write a file, new or in place of the one that is there. -/
def writeFile (tree : FileTree) (workingDir : WorkingDir) (path text : String) :
    Except FileError FileTree :=
  match tree.locate workingDir .file path with
  | .ok (.found place (.file _)) => .ok (tree.put place (.file text))
  | .ok (.vacant directory name false) => .ok (tree.put (directory ++ [name]) (.file text))
  | .ok (.found _ .sink) => .ok tree
  | .ok _ => .error ⟨.isDirectory, .openFile, path⟩
  | .error cause => .error ⟨cause, .openFile, path⟩

/-- Make a symbolic link. -/
def makeLink (tree : FileTree) (workingDir : WorkingDir) (path target : String) :
    Except FileError.Cause FileTree :=
  match tree.locate workingDir .entry path with
  | .ok (.vacant directory name false) => .ok (tree.put (directory ++ [name]) (.link target))
  | .ok (.vacant _ _ true) => .error .notFound
  | .ok (.found ..) | .ok .removed => .error .alreadyExists
  | .error cause => .error cause

/-- The place of what is at a path.  A link stands for itself. -/
def entryPlace? (tree : FileTree) (workingDir : WorkingDir) (path : String) : Option Place :=
  match tree.locate workingDir .entry path with
  | .ok (.found place _) => some place
  | _ => none

/-- Remove what is at a path, with all that is inside.  A link is removed itself. -/
def removeAll (tree : FileTree) (workingDir : WorkingDir) (path : String) : FileTree :=
  match tree.entryPlace? workingDir path with
  | some place => tree.erase place
  | none => tree

end KconfigQuery.FileTree
