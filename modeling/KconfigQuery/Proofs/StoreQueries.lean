import KconfigQuery.Store.Basic

/-! # What a query answers and what it leaves

A query has one of two outcomes.  If the store keeps the directory's options it gives these and
does nothing.  Otherwise it reads the file once, says so once, and keeps what it read.  Both are
told here by one closed form, so that later proofs need not open `query` or `load`.

* `load_eq`              reading a file is one read and one message
* `parse_of_contents`    the whole reply to a parse
* `query_eq`             the answer, the store and the events of a query
* `get?_queried`         a query changes what is kept of its own directory only
* `isEnabled_of_cached`  of a kept directory, options are told without any event -/

namespace KconfigQuery.Store

open DotConfig (Options)

variable (files : FileSystem) (store : Store) (dir : String)

/-! ## Reading -/

/-- The options that a directory's file gives now.  A file that cannot be read gives none. -/
def current : Options :=
  match files.contents (DotConfig.file dir) with
  | .ok content => DotConfig.options content
  | .error _ => .empty

/-- The one message about reading a directory's file now. -/
def readingEntry : Log.Entry :=
  match files.contents (DotConfig.file dir) with
  | .ok content => ⟨.debug, parsedMessage (DotConfig.file dir) (DotConfig.options content)⟩
  | .error fault => ⟨.error, unreadableMessage (DotConfig.file dir) fault⟩

/-- All that happens when a directory's file is read. -/
def readingEvents : List Event :=
  [.read (DotConfig.file dir), .log (readingEntry files dir)]

/-- Reading a file gives what it holds now, by one read and one message. -/
theorem load_eq : load files dir = (current files dir, readingEvents files dir) := by
  cases h : files.contents (DotConfig.file dir) <;>
    simp [load, current, readingEvents, readingEntry, h, Event.debug, Event.error]

variable {files dir} in
/-- A parse of a file that can be read leaves the store as it is. -/
theorem parse_of_contents {content : String}
    (h : files.contents (DotConfig.file dir) = .ok content) :
    store.parse files dir =
      ⟨DotConfig.options content, store, [.read (DotConfig.file dir),
        .debug (parsedMessage (DotConfig.file dir) (DotConfig.options content))]⟩ := by
  simp [parse, load, h]

/-! ## Queries -/

/-- A directory's options: the kept ones, or else what its file gives now. -/
def known : Options :=
  (store.cache.get? dir).getD (current files dir)

/-- The store after a query. -/
def queried : Store :=
  match store.cache.get? dir with
  | some _ => store
  | none => ⟨store.cache.put dir (current files dir)⟩

/-- What happens during a query. -/
def queryEvents : List Event :=
  match store.cache.get? dir with
  | some _ => []
  | none => readingEvents files dir

variable {store dir} in
/-- Of a kept directory nothing is read and nothing changes. -/
theorem outcome_of_cached {options : Options} (h : store.cache.get? dir = some options) :
    known files store dir = options ∧ queried files store dir = store ∧
      queryEvents files store dir = [] := by
  simp [known, queried, queryEvents, h]

variable {store dir} in
/-- The first query of a directory reads its file and keeps what it gives. -/
theorem outcome_of_uncached (h : store.cache.get? dir = none) :
    known files store dir = current files dir ∧
      queried files store dir = ⟨store.cache.put dir (current files dir)⟩ ∧
      queryEvents files store dir = readingEvents files dir := by
  simp [known, queried, queryEvents, h]

/-- **The outcome of a query**, whether its directory is kept or not. -/
theorem query_eq :
    store.query files dir =
      ⟨known files store dir, queried files store dir, queryEvents files store dir⟩ := by
  cases h : store.cache.get? dir with
  | some options =>
    obtain ⟨hknown, hqueried, hevents⟩ := outcome_of_cached files h
    -- Kept: nothing is read.
    rw [query_of_cached h, hknown, hqueried, hevents]
  | none =>
    obtain ⟨hknown, hqueried, hevents⟩ := outcome_of_uncached files h
    -- Not kept: the file is read, and what it gives is kept.
    rw [query_of_uncached h, load_eq, hknown, hqueried, hevents]

/-- After a query its directory is kept, and what is kept of others is what was. -/
@[simp] theorem get?_queried (other : String) :
    (queried files store dir).cache.get? other =
      if other = dir then some (known files store dir) else store.cache.get? other := by
  cases h : store.cache.get? dir with
  | some options =>
    simp only [queried, known, h, Option.getD_some]
    split
    · next ho => rw [ho, h]
    · rfl
  | none => simp [queried, known, h, Table.get?_put]

/-! ## Options -/

/-- Whether an option is enabled is told by a query of its directory. -/
theorem isEnabled_eq (option : String) :
    store.isEnabled files dir option =
      ⟨DotConfig.builtIn (known files store dir) option, queried files store dir,
        queryEvents files store dir⟩ := by
  unfold isEnabled
  rw [query_eq]
  rfl

variable {store dir}

/-- Of a kept directory, options are told without any event. -/
theorem isEnabled_of_cached {options : Options} (h : store.cache.get? dir = some options)
    (option : String) :
    store.isEnabled files dir option = ⟨DotConfig.builtIn options option, store, []⟩ := by
  unfold isEnabled
  rw [query_of_cached h]
  rfl

end KconfigQuery.Store
