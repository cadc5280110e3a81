import KconfigQuery.FileSystem
import KconfigQuery.FileTree.Walk

/-! # Reading a file tree

What a tree says about a path, seen from a working directory.  All questions but
`isSymbolicLink` are about the node that the path leads to when links are followed. -/

namespace KconfigQuery.FileTree

variable (tree : FileTree) (workingDir : WorkingDir)

/-- The node that a path leads to. -/
def lookUp (aim : Aim) (path : String) : Except FileError.Cause Node :=
  match tree.locate workingDir aim path with
  | .ok (.found _ node) => .ok node
  | .ok .removed => .ok .directory
  | .ok (.vacant ..) => .error .notFound
  | .error cause => .error cause

/-- The path leads to something. -/
def isThere (path : String) : Bool :=
  match tree.lookUp workingDir .node path with
  | .ok _ => true
  | .error _ => false

def isFile (path : String) : Bool :=
  match tree.lookUp workingDir .node path with
  | .ok (.file _) => true
  | _ => false

def isDirectory (path : String) : Bool :=
  tree.lookUp workingDir .node path matches .ok .directory

def isSymbolicLink (path : String) : Bool :=
  match tree.lookUp workingDir .entry path with
  | .ok (.link _) => true
  | _ => false

/-- The text of a file. -/
def contents (path : String) : Except FileError String :=
  match tree.lookUp workingDir .node path with
  | .ok (.file text) => .ok text
  | .ok .sink => .ok ""
  | .ok _ => .error ⟨.isDirectory, .readFile, path⟩
  | .error cause => .error ⟨cause, .openFile, path⟩

/-- The names in a directory, in the order of their code points. -/
def listDirectory (path : String) : Except FileError (List String) :=
  match tree.locate workingDir .node path with
  | .ok (.found place .directory) => .ok (tree.children place)
  | .ok (.found _ _) => .error ⟨.notDirectory, .listDirectory, path⟩
  | .ok .removed => .ok []
  | .ok (.vacant ..) => .error ⟨.notFound, .listDirectory, path⟩
  | .error cause => .error ⟨cause, .listDirectory, path⟩

end KconfigQuery.FileTree

namespace KconfigQuery

/-- The reason for a fault is the message of the error behind it. -/
def FileError.fault (error : FileError) : Fault :=
  ⟨some error.message⟩

/-- The tree as the configuration reader sees it from a working directory. -/
def FileTree.fileSystem (tree : FileTree) (workingDir : WorkingDir) : FileSystem where
  contents path := (tree.contents workingDir path).mapError FileError.fault
  listDirectory path := (tree.listDirectory workingDir path).mapError FileError.fault
  isFile := tree.isFile workingDir
  isDirectory := tree.isDirectory workingDir
  isSymbolicLink := tree.isSymbolicLink workingDir

end KconfigQuery
