import KconfigQuery.Table

/-! # File trees

A file tree is a table of nodes by place.  A place is the list of names that leads from the root,
so no place holds a slash, `.` or `..`, and the root itself is the empty list.  A file is held as
its text, because nothing is asked of a file but its text.  A sink is neither file nor directory:
it reads as empty and keeps nothing of what is written to it.

* `node?_root`   the root is a directory, whatever the table says
* `node?_put`    a node just stored is found, every other place is as before -/

namespace KconfigQuery

/-- Where a node is: the names that lead to it from the root. -/
abbrev Place := List String

/-- What is at a place. -/
inductive Node where
  | file (text : String)
  | directory
  | link (target : String)
  | sink
deriving DecidableEq

/-- The nodes below the root by their place. -/
structure FileTree where
  nodes : Table Place Node

namespace FileTree

/-- The tree that has nothing below its root. -/
def empty : FileTree := ⟨.empty⟩

/-- The node at a place. -/
def node? (tree : FileTree) (place : Place) : Option Node :=
  if place = [] then some .directory else tree.nodes.get? place

/-- Store a node at a place. -/
def put (tree : FileTree) (place : Place) (node : Node) : FileTree :=
  ⟨tree.nodes.put place node⟩

/-- Remove the node at a place and all below it. -/
def erase (tree : FileTree) (place : Place) : FileTree :=
  ⟨tree.nodes.eraseWhere fun other => place.isPrefixOf other⟩

/-- The name of a place inside a directory, if the directory holds it directly. -/
def childName? (directory place : Place) : Option String :=
  match place.getLast? with
  | some name => if place = directory ++ [name] then some name else none
  | none => none

/-- The names in a directory, in the order of their code points. -/
def children (tree : FileTree) (directory : Place) : List String :=
  (tree.nodes.keys.filterMap (childName? directory)).mergeSort fun a b => !decide (b < a)

@[simp] theorem node?_root (tree : FileTree) : tree.node? [] = some .directory := rfl

/-- After something is put at a place it is there, and no other place changes. -/
theorem node?_put (tree : FileTree) {place : Place} (h : place ≠ []) (node : Node)
    (other : Place) :
    (tree.put place node).node? other = if other = place then some node else tree.node? other := by
  unfold node? put
  by_cases ho : other = []
  · simp [ho, Ne.symm h]
  · simp [ho, Table.get?_put]

/-- Of two nodes stored at one place, the second one counts. -/
theorem put_put (tree : FileTree) (place : Place) (node other : Node) :
    (tree.put place node).put place other = tree.put place other :=
  congrArg FileTree.mk (Table.put_put tree.nodes place node other)

end FileTree

end KconfigQuery
