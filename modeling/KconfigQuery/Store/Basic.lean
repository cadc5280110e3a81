import KconfigQuery.DotConfig.Options
import KconfigQuery.FileSystem
import KconfigQuery.Log

/-! # The configuration store

A store keeps the options of each kernel directory it was asked for.  The first question about a
directory reads its configuration file, and the answer is kept until the store is cleared, also
when the file could not be read: such a directory has no options.  Directories are told apart by
their texts, so two spellings of one directory are kept twice.

The file system is handed in with each question, because files may change in between.  What a
question does besides answering is an ordered list of events: files read and messages logged.

* `query_of_cached`     a kept answer is given again, and nothing happens
* `query_of_uncached`   otherwise the file is read, and its options are kept -/

namespace KconfigQuery

open DotConfig (Options)

namespace Store

/-- What happens while a question is answered. -/
inductive Event where
  /-- A configuration file was read, with success or without. -/
  | read (path : String)
  /-- A directory was listed, with success or without. -/
  | list (path : String)
  | log (entry : Log.Entry)
deriving DecidableEq

/-- An error message. -/
def Event.error (message : String) : Event := .log ⟨.error, message⟩

/-- A debug message. -/
def Event.debug (message : String) : Event := .log ⟨.debug, message⟩

end Store

/-- Options by kernel directory. -/
structure Store where
  cache : Table String Options

namespace Store

/-- The answer to a question, the store after it, and what happened. -/
structure Reply (α : Type) where
  answer : α
  store : Store
  events : List Event

/-- Answer with a function of the answer. -/
def Reply.map {α β : Type} (f : α → β) (reply : Reply α) : Reply β :=
  ⟨f reply.answer, reply.store, reply.events⟩

/-- The store that was asked nothing yet. -/
def empty : Store := ⟨.empty⟩

/-! ## Reading a configuration -/

/-- The message about a configuration that was read. -/
def parsedMessage (path : String) (options : Options) : String :=
  "Parsed " ++ toString options.size ++ " options from " ++ path

/-- The message about a configuration that could not be read. -/
def unreadableMessage (path : String) (fault : Fault) : String :=
  "Failed to open kernel config file " ++ path ++ fault.suffix

/-- The options of a kernel directory as its file gives them now. -/
def load (files : FileSystem) (dir : String) : Options × List Event :=
  let path := DotConfig.file dir
  match files.contents path with
  | .ok content =>
    let options := DotConfig.options content
    (options, [.read path, .debug (parsedMessage path options)])
  | .error fault => (.empty, [.read path, .error (unreadableMessage path fault)])

/-! ## Questions -/

/-- Read a directory's options afresh, past the store. -/
def parse (files : FileSystem) (store : Store) (dir : String) : Reply Options :=
  let (options, events) := load files dir
  ⟨options, store, events⟩

/-- The options of a directory. -/
def query (files : FileSystem) (store : Store) (dir : String) : Reply Options :=
  match store.cache.get? dir with
  | some options => ⟨options, store, []⟩
  | none =>
    let (options, events) := load files dir
    ⟨options, ⟨store.cache.put dir options⟩, events⟩

/-- The value of an option in a directory. -/
def value? (files : FileSystem) (store : Store) (dir option : String) : Reply (Option String) :=
  (store.query files dir).map (·.get? option)

/-- The option is built in. -/
def isEnabled (files : FileSystem) (store : Store) (dir option : String) : Reply Bool :=
  (store.query files dir).map (DotConfig.builtIn · option)

/-! ## Laws -/

/-- A query of a directory that is kept reads nothing. -/
theorem query_of_cached {files : FileSystem} {store : Store} {dir : String} {options : Options}
    (h : store.cache.get? dir = some options) :
    store.query files dir = ⟨options, store, []⟩ := by
  simp [query, h]

/-- A query of any other directory reads its file and keeps what it gives. -/
theorem query_of_uncached {files : FileSystem} {store : Store} {dir : String}
    (h : store.cache.get? dir = none) :
    store.query files dir =
      ⟨(load files dir).1, ⟨store.cache.put dir (load files dir).1⟩, (load files dir).2⟩ := by
  simp [query, h]

end Store

end KconfigQuery
