import KconfigQuery.Architecture.Inference

/-! # Runs of a store

A run is a list of requests to one store, each with the file system as it is at that moment.

* `run_append`   a run can be cut in two anywhere -/

namespace KconfigQuery.Store

open DotConfig (Options)

/-- What a store can be asked to do. -/
inductive Request where
  | parse (dir : String)
  | options (dir : String)
  | value (dir option : String)
  | enabled (dir option : String)
  | architecture (dir : String)
  | clear
deriving DecidableEq

/-- What a store answers. -/
inductive Answer where
  | options (options : Options)
  | value (value? : Option String)
  | enabled (isEnabled : Bool)
  | architecture (arch? : Option String)
  | cleared

/-- Handle one request. -/
def step (files : FileSystem) (store : Store) : Request → Reply Answer
  | .parse dir => (store.parse files dir).map .options
  | .options dir => (store.query files dir).map .options
  | .value dir option => (store.value? files dir option).map .value
  | .enabled dir option => (store.isEnabled files dir option).map .enabled
  | .architecture dir => (store.architecture files dir).map .architecture
  | .clear => ⟨.cleared, .empty, []⟩

/-- A request with the file system it meets. -/
structure Moment where
  files : FileSystem
  request : Request

/-- The replies to a list of requests, one after the other. -/
def run (store : Store) : List Moment → List (Reply Answer)
  | [] => []
  | moment :: later =>
    let reply := store.step moment.files moment.request
    reply :: reply.store.run later

/-- The store after a list of requests. -/
def after (store : Store) (moments : List Moment) : Store :=
  moments.foldl (fun store moment => (store.step moment.files moment.request).store) store

/-- A run of two lists of requests is a run of the first and then one of the second. -/
theorem run_append (store : Store) (ms ns : List Moment) :
    store.run (ms ++ ns) = store.run ms ++ (store.after ms).run ns := by
  induction ms generalizing store with
  | nil => rfl
  | cons m ms ih => simp [run, after, ih]

end KconfigQuery.Store
