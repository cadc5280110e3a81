/-! # What the configuration reader needs of a file system

Kernel configurations are read through five questions about paths.  Any answers will do: a file
tree gives them, and so can a table made up for the occasion. -/

namespace KconfigQuery

/-- A failed access, with the reason if there is one to tell. -/
structure Fault where
  reason? : Option String
deriving DecidableEq

namespace Fault

/-- The reason as it ends a message about the fault. -/
def suffix (fault : Fault) : String :=
  match fault.reason? with
  | some reason => ": " ++ reason
  | none => ""

end Fault

/-- A file system, as far as kernel configurations ask for it. -/
structure FileSystem where
  /-- The text of a file. -/
  contents : String → Except Fault String
  /-- The names in a directory, in the order in which they are to be tried. -/
  listDirectory : String → Except Fault (List String)
  isFile : String → Bool
  isDirectory : String → Bool
  /-- The path itself is a symbolic link, wherever it leads. -/
  isSymbolicLink : String → Bool

end KconfigQuery
