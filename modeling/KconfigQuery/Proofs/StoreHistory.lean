import Mathlib.Data.List.DropRight
import KconfigQuery.Store.Run
import KconfigQuery.Proofs.ArchitectureSearch

/-! # Answers from the history of a store

What a store keeps is told by what was asked of it, without looking into it: of each directory, the
options that its file gave at the first query since the store was last cleared.  `expected` is the
answer to a request by this rule.  The rule knows no cache, and the file system may change between
any two requests.

* `answer_step`, `get?_step`   one request: its answer, and what is kept after it
* `getElem?_run`               the answers of a run are the expected ones
* `answers_from_history`       the same with the two independences that follow from it -/

namespace KconfigQuery.Store

open Architecture
open DotConfig (Options)

/-! ## One request -/

/-- The entries of the directory `arch`, if it is a directory that can be listed. -/
def listing? (files : FileSystem) (dir : String) : Option (List String) :=
  if files.isDirectory (directory dir) then (files.listDirectory (directory dir)).toOption else none

/-- The architecture that options select in a kernel tree. -/
def inferred (files : FileSystem) (dir : String) (options : Options) : Option String :=
  (listing? files dir).bind fun entries =>
    (entries.find? (selects files dir options)).or (selectedAlias? (DotConfig.builtIn options))

/-- The answer to a request when the options of each directory are given.  Only a parse looks at the
    file itself. -/
def respond (files : FileSystem) (optionsOf : String → Options) : Request → Answer
  | .parse dir => .options (current files dir)
  | .options dir => .options (optionsOf dir)
  | .value dir option => .value ((optionsOf dir).get? option)
  | .enabled dir option => .enabled (DotConfig.builtIn (optionsOf dir) option)
  | .architecture dir => .architecture (inferred files dir (optionsOf dir))
  | .clear => .cleared

/-- The request is a query of a directory: it asks for the options that the store keeps.  An
    inference asks for them as soon as it has listed the architectures. -/
def Moment.asks (moment : Moment) (dir : String) : Bool :=
  match moment.request with
  | .options queried => queried = dir
  | .value queried _ => queried = dir
  | .enabled queried _ => queried = dir
  | .architecture queried => queried = dir && (listing? moment.files queried).isSome
  | .parse _ => false
  | .clear => false

/-- An inference that can list the architectures is a query of its directory. -/
private theorem architecture_of_listing {files : FileSystem} {dir : String} {entries : List String}
    (h : listing? files dir = some entries) (store : Store) :
    (store.architecture files dir).answer = inferred files dir (known files store dir) ∧
      (store.architecture files dir).store = queried files store dir := by
  unfold listing? at h
  split at h
  · next hd =>
    cases hl : files.listDirectory (directory dir) with
    | error fault => simp [hl, Except.toOption] at h
    | ok listed =>
      simp [architecture, inferred, listing?, hd, hl, choose_eq, Except.toOption]
  · cases h

/-- An inference that cannot list them finds no architecture and leaves the store as it is. -/
private theorem architecture_of_no_listing {files : FileSystem} {dir : String}
    (h : listing? files dir = none) (store : Store) :
    (store.architecture files dir).answer = none ∧
      (store.architecture files dir).store = store := by
  cases hd : files.isDirectory (directory dir) with
  | false => simp [architecture, hd]
  | true =>
    cases hl : files.listDirectory (directory dir) with
    | error fault => simp [architecture, hd, hl]
    | ok entries => simp [listing?, hd, hl, Except.toOption] at h

/-- **One request**: its answer, told by what the store knows of each directory. -/
theorem answer_step (files : FileSystem) (store : Store) (request : Request) :
    (store.step files request).answer = respond files (known files store) request := by
  cases request with
  | parse dir => simp [step, parse, Reply.map, load_eq, respond]
  | options dir => simp [step, Reply.map, query_eq, respond]
  | value dir option => simp [step, value?, Reply.map, query_eq, respond]
  | enabled dir option => simp [step, Reply.map, isEnabled_eq, respond]
  | architecture dir =>
    cases h : listing? files dir with
    | none =>
      have hnone := (architecture_of_no_listing h store).1
      simp [step, Reply.map, hnone, respond, inferred, h]
    | some entries =>
      have hsome := (architecture_of_listing h store).1
      simp [step, Reply.map, hsome, respond]
  | clear => rfl

/-- What is kept of a directory after a request.  A query keeps what it finds, if nothing is kept
    yet, and only clearing drops anything. -/
theorem get?_step (store : Store) (moment : Moment) (dir : String) :
    (store.step moment.files moment.request).store.cache.get? dir =
      if moment.request = .clear then none
      else (store.cache.get? dir).or
        (if moment.asks dir then some (current moment.files dir) else none) := by
  -- What a query of any directory leaves of this one.
  have hqueried : ∀ asked : String,
      (queried moment.files store asked).cache.get? dir =
        (store.cache.get? dir).or
          (if asked = dir then some (current moment.files dir) else none) := by
    intro asked
    rw [get?_queried]
    by_cases h : dir = asked
    · subst h
      cases hkept : store.cache.get? dir <;> simp [known, hkept]
    · simp [h, Ne.symm h]
  -- One case for each request; an inference is a query if it has listed the architectures.
  obtain ⟨files, request⟩ := moment
  cases request with
  | parse asked => simp [step, parse, Reply.map, load_eq, Moment.asks]
  | options asked => simpa [step, Reply.map, query_eq, Moment.asks] using hqueried asked
  | value asked option =>
    simpa [step, value?, Reply.map, query_eq, Moment.asks] using hqueried asked
  | enabled asked option =>
    simpa [step, Reply.map, isEnabled_eq, Moment.asks] using hqueried asked
  | architecture asked =>
    cases h : listing? files asked with
    | none =>
      have hnone := (architecture_of_no_listing h store).2
      simp [step, Reply.map, hnone, Moment.asks, h]
    | some entries =>
      have hsome := (architecture_of_listing h store).2
      simpa [step, Reply.map, hsome, Moment.asks, h] using hqueried asked
  | clear => rfl

/-! ## The history -/

/-- The moments since the store was last cleared. -/
def sinceClear (history : List Moment) : List Moment :=
  history.rtakeWhile fun moment => moment.request ≠ .clear

/-- The options that a directory's file gave at the first query of it since the store was last
    cleared, if there was such a query. -/
def firstQuery? (history : List Moment) (dir : String) : Option Options :=
  ((sinceClear history).find? fun moment => moment.asks dir).map fun moment =>
    current moment.files dir

/-- The answer that is due at a moment after a history.  Where no query has come before, the moment
    itself is the first one. -/
def expected (history : List Moment) (now : Moment) : Answer :=
  respond now.files (fun dir => (firstQuery? history dir).getD (current now.files dir)) now.request

/-- The first query after one moment more: the one there was, or else this moment, and none after
    clearing. -/
theorem firstQuery?_concat (history : List Moment) (moment : Moment) (dir : String) :
    firstQuery? (history ++ [moment]) dir =
      if moment.request = .clear then none
      else (firstQuery? history dir).or
        (if moment.asks dir then some (current moment.files dir) else none) := by
  unfold firstQuery? sinceClear
  rw [List.rtakeWhile_concat]
  -- Clearing cuts the history off, and any other moment is the last one since.
  by_cases hc : moment.request = .clear
  · simp [hc]
  · simp [hc, List.find?_append, Option.map_or]

/-- The store keeps exactly what the history tells. -/
def Remembers (store : Store) (history : List Moment) : Prop :=
  ∀ dir, store.cache.get? dir = firstQuery? history dir

theorem remembers_empty : Remembers .empty [] := fun _ => rfl

/-- **One step**: a request keeps the store in accord with its history. -/
theorem Remembers.step {store : Store} {history : List Moment} (h : Remembers store history)
    (moment : Moment) :
    Remembers (store.step moment.files moment.request).store (history ++ [moment]) := by
  intro dir
  rw [get?_step, firstQuery?_concat, h dir]

/-- A store in accord with its history gives the expected answer. -/
theorem Remembers.answer {store : Store} {history : List Moment} (h : Remembers store history)
    (moment : Moment) :
    (store.step moment.files moment.request).answer = expected history moment := by
  have hknown : known moment.files store =
      fun dir => (firstQuery? history dir).getD (current moment.files dir) := by
    funext dir
    rw [known, h dir]
  rw [answer_step, hknown, expected]

/-! ## Runs -/

/-- The answers to a list of requests to a new store. -/
def answers (moments : List Moment) : List Answer :=
  (Store.empty.run moments).map Reply.answer

/-- **A run**: every answer is the expected one after the moments before it. -/
theorem Remembers.getElem?_run {store : Store} {history : List Moment}
    (h : Remembers store history) (moments : List Moment) (i : Nat) :
    ((store.run moments).map Reply.answer)[i]? =
      moments[i]?.map (expected (history ++ moments.take i)) := by
  -- The first request moves from the run to the history, and the store remembers it there.
  induction moments generalizing store history i with
  | nil => rfl
  | cons moment later ih =>
    cases i with
    | zero => simp [run, h.answer moment]
    | succ i =>
      have hnext := ih (h.step moment) i
      simpa [run, List.append_assoc] using hnext

/-- A parse is answered from the file as it is and leaves no trace. -/
private theorem answers_parse (before later : List Moment) (files : FileSystem) (dir : String) :
    answers (before ++ ⟨files, .parse dir⟩ :: later) =
      answers before ++ .options (current files dir) ::
        (answers (before ++ later)).drop before.length := by
  -- A run has one answer for each request, so the later answers are found by counting.
  have hlength : ∀ (store : Store) (moments : List Moment),
      ((store.run moments).map Reply.answer).length = moments.length := by
    intro store moments
    induction moments generalizing store with
    | nil => rfl
    | cons moment later ih => simpa [run] using ih _
  have hdrop : (answers (before ++ later)).drop before.length =
      ((Store.empty.after before).run later).map Reply.answer := by
    unfold answers
    rw [run_append, List.map_append, List.drop_left' (hlength _ _)]
  have hparse : ((Store.empty.after before).step files (.parse dir)) =
      ⟨.options (current files dir), Store.empty.after before, readingEvents files dir⟩ := by
    simp [step, parse, Reply.map, load_eq]
  rw [hdrop]
  simp [answers, run_append, run, hparse]

/-! ## One directory at a time -/

/-- The directory that a request names. -/
def Request.dir? : Request → Option String
  | .parse dir => some dir
  | .options dir => some dir
  | .value dir _ => some dir
  | .enabled dir _ => some dir
  | .architecture dir => some dir
  | .clear => none

/-- The request names the directory, by this very text, or it is for all directories. -/
def Moment.concerns (dir : String) (moment : Moment) : Bool :=
  moment.request.dir?.all (· = dir)

/-- The answers of a run to the requests that concern a directory. -/
def answersAbout (dir : String) (moments : List Moment) : List Answer :=
  ((moments.zip (answers moments)).filter fun (moment, _) => moment.concerns dir).map Prod.snd

/-- The answer about a directory depends on what is kept of this one only. -/
private theorem answer_step_congr {store other : Store} {dir : String} {moment : Moment}
    (h : store.cache.get? dir = other.cache.get? dir) (hc : moment.concerns dir) :
    (store.step moment.files moment.request).answer =
      (other.step moment.files moment.request).answer := by
  -- Both stores know the same options of the directory.
  have hknown : known moment.files store dir = known moment.files other dir := by
    rw [known, known, h]
  obtain ⟨files, request⟩ := moment
  simp only [answer_step]
  cases request <;> simp_all [Moment.concerns, Request.dir?, respond]

/-- A request that does not concern a directory is no query of it. -/
private theorem asks_of_not_concerns {dir : String} {moment : Moment}
    (h : moment.concerns dir = false) : moment.asks dir = false := by
  obtain ⟨files, request⟩ := moment
  cases request <;> simp_all [Moment.concerns, Request.dir?, Moment.asks]

/-- Clearing concerns every directory. -/
private theorem request_ne_clear_of_not_concerns {dir : String} {moment : Moment}
    (h : moment.concerns dir = false) : moment.request ≠ .clear := by
  intro hc
  simp [Moment.concerns, hc, Request.dir?] at h

/-- Two stores that keep the same of a directory give the same answers about it, even if one of
    them gets no other requests. -/
private theorem answersAbout_run {store other : Store} {dir : String}
    (h : store.cache.get? dir = other.cache.get? dir) (moments : List Moment) :
    ((moments.zip ((store.run moments).map Reply.answer)).filter fun (moment, _) =>
        moment.concerns dir).map Prod.snd =
      (other.run (moments.filter (·.concerns dir))).map Reply.answer := by
  induction moments generalizing store other with
  | nil => rfl
  | cons moment later ih =>
    cases hc : moment.concerns dir with
    | true =>
      -- Both stores get the request, answer it alike and keep the same of the directory.
      have hanswer := answer_step_congr h hc
      have hkept : (store.step moment.files moment.request).store.cache.get? dir =
          (other.step moment.files moment.request).store.cache.get? dir := by
        rw [get?_step, get?_step, h]
      simpa [run, hc, hanswer] using ih hkept
    | false =>
      -- A request about another directory leaves this one's entry as it is.
      have hkept : (store.step moment.files moment.request).store.cache.get? dir =
          other.cache.get? dir := by
        rw [get?_step, if_neg (request_ne_clear_of_not_concerns hc), asks_of_not_concerns hc, h]
        simp
      simpa [run, hc] using ih hkept

/-- A store refines its history.  In a run of any requests over changing files each answer is the
    expected one; a parse is answered from the file as it is and changes no other answer; and the
    answers about a directory are what they would be if no other directory, told apart by its
    text, had been asked for. -/
theorem answers_from_history (moments before later : List Moment) (files : FileSystem)
    (dir : String) :
    (∀ i, (answers moments)[i]? = moments[i]?.map (expected (moments.take i))) ∧
      answers (before ++ ⟨files, .parse dir⟩ :: later) =
        answers before ++ .options (current files dir) ::
          (answers (before ++ later)).drop before.length ∧
      answersAbout dir moments = answers (moments.filter (·.concerns dir)) := by
  refine ⟨fun i => ?_, answers_parse before later files dir, ?_⟩
  · have hrun := remembers_empty.getElem?_run moments i
    rwa [List.nil_append] at hrun
  · exact answersAbout_run rfl moments

end KconfigQuery.Store
