import KconfigQuery.FileError
import KconfigQuery.FileTree.Basic
import KconfigQuery.Text.Cut

/-! # Following a path through a file tree

Unlike the handling of path texts, following a path looks at the tree: every name on the way has
to be there, `..` leads to the parent of wherever the walk has come, and a symbolic link is
replaced by its target.  At most forty links are followed, and names and paths have a greatest
length.

A directory that is removed while a program works in it stays the working directory.  Nothing is
in it and nothing can be made in it, but `..` still leads out of it.

* `pathProblem?_eq_none_iff`   the texts that are followed as paths
* `follow_of_present`          from a directory that is there, a path is walked -/

namespace KconfigQuery.FileTree

/-- Where a walk ends. -/
inductive Destination where
  /-- A node that is there. -/
  | found (place : Place) (node : Node)
  /-- A name that is free in a directory that is there; `slashed` if a slash followed it. -/
  | vacant (directory : Place) (name : String) (slashed : Bool)
  /-- A directory that has been removed. -/
  | removed
deriving DecidableEq

/-- A working directory: `lost` levels inside a directory that is there.  These levels have been
    removed. -/
structure WorkingDir where
  place : Place
  lost : Nat
deriving DecidableEq

/-- The working directory at a place. -/
def WorkingDir.at (place : Place) : WorkingDir :=
  ⟨place, 0⟩

/-- The working directory after the removal of what is at a place. -/
def WorkingDir.without (workingDir : WorkingDir) (removed : Place) : WorkingDir :=
  if removed ≠ [] ∧ removed.isPrefixOf workingDir.place then
    ⟨removed.dropLast, workingDir.lost + (workingDir.place.length - removed.length + 1)⟩
  else workingDir

/-- The names of a path in order.  A slash at the end counts as an empty name, which stands for
    the directory that the path has to lead to. -/
def steps (path : String) : List String :=
  let pieces := (Text.pieces '/' path.toList).map String.ofList
  let names := pieces.filter (· ≠ "")
  if names ≠ [] ∧ pieces.getLast? = some "" then names ++ [""] else names

/-- How many symbolic links one walk follows. -/
def maxLinks : Nat := 40

/-- How many bytes a name may have. -/
def maxNameSize : Nat := 255

/-- How many bytes a path may have. -/
def maxPathSize : Nat := 4095

/-- Where the target of a link starts that is at a place. -/
def origin (place : Place) (path : String) : Place :=
  if path.toList.head? = some '/' then [] else place

/-- What a path is followed for. -/
inductive Aim where
  /-- What the path leads to in the end. -/
  | node
  /-- What stands at the path: a link that is the very last name is not followed. -/
  | entry
  /-- A file to be written: the very last name must have no slash after it. -/
  | file
deriving DecidableEq

/-- Follow names from a place, following at most `links` links. -/
def walk (tree : FileTree) (aim : Aim) (links : Nat) (place : Place) :
    List String → Except FileError.Cause Destination
  | [] =>
    match tree.node? place with
    | some node => .ok (.found place node)
    | none => .error .notFound
  | name :: rest =>
    -- Only a directory has names in it, even the names `.` and `..`.
    if tree.node? place ≠ some .directory then .error .notDirectory
    else if name = "" ∨ name = "." then walk tree aim links place rest
    else if name = ".." then walk tree aim links place.dropLast rest
    else if aim = .file ∧ rest = [""] then .error .isDirectory
    else if maxNameSize < name.utf8ByteSize then .error .nameTooLong
    else
      match tree.node? (place ++ [name]) with
      | none =>
        -- A missing name is no error yet if it is the last one.
        if rest = [] then .ok (.vacant place name false)
        else if rest = [""] then .ok (.vacant place name true)
        else .error .notFound
      | some (.link target) =>
        if rest = [] ∧ aim = .entry then .ok (.found (place ++ [name]) (.link target))
        else
          -- The target's names come first, then the rest of the path.
          match links with
          | 0 => .error .tooManyLinks
          | links + 1 => walk tree aim links (origin place target) (steps target ++ rest)
      | some _ => walk tree aim links (place ++ [name]) rest
termination_by names => (links, names.length)

/-- Why a text is not followed as a path, if it is not.  The empty path leads nowhere. -/
def pathProblem? (path : String) : Option FileError.Cause :=
  if '\x00' ∈ path.toList then some .nullInPath
  else if path = "" then some .notFound
  else if maxPathSize < path.utf8ByteSize then some .nameTooLong
  else none

/-- Texts that are followed as paths: not empty, not too long, and without the null character. -/
theorem pathProblem?_eq_none_iff {path : String} :
    pathProblem? path = none ↔
      '\x00' ∉ path.toList ∧ path ≠ "" ∧ path.utf8ByteSize ≤ maxPathSize := by
  unfold pathProblem?
  by_cases hn : '\x00' ∈ path.toList
  · simp [hn]
  · by_cases he : path = ""
    · simp [he]
    · simp [hn, he]

/-- Where a path starts that is seen from a working directory. -/
def start (workingDir : WorkingDir) (path : String) : WorkingDir :=
  if path.toList.head? = some '/' then .at [] else workingDir

/-- Leave the removed levels of a working directory by names.  What is left are the names to walk
    on by, or nothing if they do not lead out. -/
def leave : Nat → List String → Except FileError.Cause (Option (List String))
  | 0, names => .ok (some names)
  | _ + 1, [] => .ok none
  | lost + 1, name :: rest =>
    if name = "" ∨ name = "." then leave (lost + 1) rest
    else if name = ".." then leave lost rest
    else .error .notFound

/-- Where names lead from where a path starts. -/
def follow (tree : FileTree) (workingDir : WorkingDir) (aim : Aim) (path : String)
    (names : List String) : Except FileError.Cause Destination :=
  match pathProblem? path with
  | some cause => .error cause
  | none =>
    match leave (start workingDir path).lost names with
    | .ok (some names) => walk tree aim maxLinks (start workingDir path).place names
    | .ok none => .ok .removed
    | .error cause => .error cause

/-- From a working directory that is there, names lead where a walk leads. -/
theorem follow_of_present {tree : FileTree} {place : Place} {aim : Aim} {path : String}
    {names : List String} (h : pathProblem? path = none) :
    follow tree (.at place) aim path names =
      walk tree aim maxLinks (origin place path) names := by
  by_cases ha : path.toList.head? = some '/' <;>
    simp [follow, start, origin, h, ha, WorkingDir.at, leave]

/-- Where a path leads from a working directory. -/
def locate (tree : FileTree) (workingDir : WorkingDir) (aim : Aim) (path : String) :
    Except FileError.Cause Destination :=
  follow tree workingDir aim path (steps path)

end KconfigQuery.FileTree
