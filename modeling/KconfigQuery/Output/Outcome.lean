import KconfigQuery.FileTree.Basic
import KconfigQuery.Store.Basic

/-! # The outcome of a run

A run is seen from outside by what it writes to its two outputs, by the files of the kernel tree
it looks at, by its exit code and by the file tree it leaves.  Writes and looks are kept in their
order.

* `stdout_append`   what is written adds up -/

namespace KconfigQuery.Output

/-- What a run does, as far as it can be seen. -/
inductive Event where
  /-- A write to the standard output. -/
  | stdout (text : String)
  /-- A diagnostic of some level, written to the error output. -/
  | diagnostic (level : Log.Level) (text : String)
  /-- Anything else written to the error output. -/
  | stderr (text : String)
  | read (path : String)
  | list (path : String)
deriving DecidableEq

/-- The part of an event that goes to the standard output. -/
def Event.out : Event → String
  | stdout text => text
  | _ => ""

/-- The part of an event that goes to the error output. -/
def Event.err : Event → String
  | diagnostic _ text => text
  | stderr text => text
  | _ => ""

/-- A line on the standard output. -/
def Event.line (text : String) : Event := .stdout (text ++ "\n")

/-- What is seen of an event of the store when a logger writes its messages. -/
def Event.ofStore? (palette : Text.Palette) (logger : Log.Logger) : Store.Event → Option Event
  | .read path => some (read path)
  | .list path => some (list path)
  | .log entry => (logger.show? palette entry).map (diagnostic entry.level)

/-- All that is written to the standard output. -/
def stdout (events : List Event) : String := String.join (events.map Event.out)

/-- All that is written to the error output. -/
def stderr (events : List Event) : String := String.join (events.map Event.err)

theorem stdout_append (a b : List Event) : stdout (a ++ b) = stdout a ++ stdout b := by
  simp [stdout]

/-- The outcome of a run. -/
structure Outcome where
  events : List Event
  exitCode : Nat
  tree : FileTree

end KconfigQuery.Output
