import Mathlib.Data.List.Dedup
import KconfigQuery.Proofs.StoreHistory

/-! # Which files a store reads, and what it says about them

The files that a run reads are told by its requests and by what the directories `arch` were at the
time, without looking into the store.  A parse reads always, and a query reads if it is the first
one of its directory since the store was last cleared.  Each reading is followed by one message
about it, and nothing else makes such a message.

* `readingPart_step`        one request: what of its events is about reading
* `readingPart_run`         the same for a run, in the order of the requests
* `readings_from_history`   reads, messages, and the silence of answers that were kept -/

namespace KconfigQuery

namespace Table

variable {κ β : Type} [DecidableEq κ]

/-- A table of pairs has one key for each key among the pairs. -/
theorem size_ofList (pairs : List (κ × β)) :
    (ofList pairs).size = (pairs.map Prod.fst).dedup.length := by
  -- Both lists have the keys of the pairs and no key twice.
  have hmem : ∀ key, key ∈ (ofList pairs).keys ↔ key ∈ (pairs.map Prod.fst).dedup := by
    intro key
    rw [List.mem_dedup, ofList, mem_keys_putAll]
    simp
  have hperm : (ofList pairs).keys.Perm (pairs.map Prod.fst).dedup :=
    (List.perm_ext_iff_of_nodup (ofList pairs).nodup_keys (List.nodup_dedup _)).mpr hmem
  have hlength := hperm.length_eq
  rwa [keys, List.length_map] at hlength

end Table

namespace Store

open Architecture

/-! ## Events about reading -/

/-- The path that was read. -/
def Event.readPath? : Event → Option String
  | .read path => some path
  | .list _ => none
  | .log _ => none

/-- The first words of the messages about reading: an error that a file could not be opened, or a
    debug message that it was parsed. -/
def readingWords : Log.Level → String
  | .error => "Failed to open kernel config file"
  | .debug => "Parsed "

/-- The entry is about reading a configuration. -/
def isReadingEntry (entry : Log.Entry) : Bool :=
  (readingWords entry.level).toList.isPrefixOf entry.message.toList

/-- The event is a reading or a message about one. -/
def Event.isReading : Event → Bool
  | .read _ => true
  | .list _ => false
  | .log entry => isReadingEntry entry

/-- The part of events that is about reading. -/
def readingPart (events : List Event) : List Event :=
  events.filter Event.isReading

@[simp] theorem readingPart_nil : readingPart [] = [] := rfl

@[simp] theorem readingPart_append (events more : List Event) :
    readingPart (events ++ more) = readingPart events ++ readingPart more :=
  List.filter_append ..

/-- A message that starts with the first words of its level is about reading. -/
private theorem isReadingEntry_append (level : Log.Level) (rest : String) :
    isReadingEntry ⟨level, readingWords level ++ rest⟩ := by
  rw [isReadingEntry, String.toList_append, List.isPrefixOf_iff_prefix]
  exact List.prefix_append _ _

/-- A message that starts otherwise is not about reading.  It differs from the first words at some
    place. -/
private theorem isReadingEntry_append_of_ne {level : Log.Level} {start : String} (i : Nat)
    (hw : i < (readingWords level).toList.length) (hs : i < start.toList.length)
    (h : (readingWords level).toList[i]? ≠ start.toList[i]?) (rest : String) :
    isReadingEntry ⟨level, start ++ rest⟩ = false := by
  rw [isReadingEntry, String.toList_append, Bool.eq_false_iff, Ne, List.isPrefixOf_iff_prefix]
  -- Were the first words at the start, both texts would have the same character at place `i`.
  rintro ⟨more, hmore⟩
  have hat := congrArg (·[i]?) hmore
  simp only [List.getElem?_append_left hw, List.getElem?_append_left hs] at hat
  exact h hat

/-- How many options were parsed is about reading. -/
private theorem isReadingEntry_parsed (path : String) (options : DotConfig.Options) :
    isReadingEntry ⟨.debug, parsedMessage path options⟩ := by
  have htext : parsedMessage path options =
      readingWords .debug ++ (toString options.size ++ (" options from " ++ path)) := by
    rw [← String.append_assoc, ← String.append_assoc]
    rfl
  rw [htext]
  exact isReadingEntry_append .debug _

/-- That a file could not be opened is about reading. -/
private theorem isReadingEntry_unreadable (path : String) (fault : Fault) :
    isReadingEntry ⟨.error, unreadableMessage path fault⟩ := by
  -- The first words end before a space.
  have hwords : "Failed to open kernel config file " = readingWords .error ++ " " := by
    decide +kernel
  have htext : unreadableMessage path fault =
      readingWords .error ++ (" " ++ (path ++ fault.suffix)) := by
    rw [← String.append_assoc, ← String.append_assoc, ← hwords]
    rfl
  rw [htext]
  exact isReadingEntry_append .error _

/-- Whether the file can be read or not, the message of a reading is about reading. -/
private theorem isReadingEntry_readingEntry (files : FileSystem) (dir : String) :
    isReadingEntry (readingEntry files dir) := by
  unfold readingEntry
  cases files.contents (DotConfig.file dir) with
  | ok content => exact isReadingEntry_parsed _ _
  | error fault => exact isReadingEntry_unreadable _ fault

/-- That an entry has no `Kconfig` is not about reading. -/
private theorem isReadingEntry_skipped (arch : String) :
    isReadingEntry ⟨.debug, skippedMessage arch⟩ = false := by
  have htext : skippedMessage arch = "Skipping arch/" ++ (arch ++ ": no Kconfig") :=
    String.append_assoc ..
  rw [htext]
  exact isReadingEntry_append_of_ne 0 (by decide +kernel) (by decide +kernel) (by decide +kernel) _

/-- That no architecture fits is not about reading. -/
private theorem isReadingEntry_undecided (dir : String) :
    isReadingEntry ⟨.error, undecidedMessage dir⟩ = false :=
  isReadingEntry_append_of_ne 0 (by decide +kernel) (by decide +kernel) (by decide +kernel) dir

/-- That there is no directory `arch` is not about reading. -/
private theorem isReadingEntry_missing (dir : String) :
    isReadingEntry ⟨.error, missingMessage dir⟩ = false := by
  have htext : missingMessage dir =
      "'arch' subdirectory in kernel " ++ (dir ++ " does not exist") := String.append_assoc ..
  rw [htext]
  exact isReadingEntry_append_of_ne 0 (by decide +kernel) (by decide +kernel) (by decide +kernel) _

/-- The two messages about failures start with the same two words. -/
private theorem isReadingEntry_unlisted (path : String) (fault : Fault) :
    isReadingEntry ⟨.error, unlistedMessage path fault⟩ = false := by
  have htext : unlistedMessage path fault = "Failed to list " ++ (path ++ fault.suffix) :=
    String.append_assoc ..
  rw [htext]
  exact isReadingEntry_append_of_ne 10 (by decide +kernel) (by decide +kernel)
    (by decide +kernel) _

@[simp] theorem readingPart_readingEvents (files : FileSystem) (dir : String) :
    readingPart (readingEvents files dir) = readingEvents files dir := by
  simp [readingPart, readingEvents, Event.isReading, isReadingEntry_readingEntry]

/-- Skipped entries are not about reading. -/
@[simp] theorem readingPart_skipEvents (files : FileSystem) (dir : String)
    (archs : List String) : readingPart (skipEvents files dir archs) = [] := by
  rw [readingPart, List.filter_eq_nil_iff]
  -- Each is a debug message that starts with `Skipping`.
  intro event hevent
  obtain ⟨arch, -, rfl⟩ := List.mem_map.mp hevent
  simp [Event.debug, Event.isReading, isReadingEntry_skipped]

/-- The last word of an inference is not about reading. -/
@[simp] theorem readingPart_verdictEvents (dir : String) (arch? : Option String) :
    readingPart (verdictEvents dir arch?) = [] := by
  cases arch? <;>
    simp [readingPart, verdictEvents, Event.error, Event.isReading, isReadingEntry_undecided]

/-- All events of a query are about reading. -/
@[simp] theorem readingPart_queryEvents (files : FileSystem) (store : Store) (dir : String) :
    readingPart (queryEvents files store dir) = queryEvents files store dir := by
  unfold queryEvents
  split
  · rfl
  · exact readingPart_readingEvents files dir

/-- An inference is about reading as far as it is a query, which it is if it has listed the
    architectures. -/
theorem readingPart_architecture (files : FileSystem) (store : Store) (dir : String) :
    readingPart (store.architecture files dir).events =
      if (listing? files dir).isSome then queryEvents files store dir else [] := by
  cases hd : files.isDirectory (directory dir) with
  | false =>
    simp [architecture, listing?, hd, readingPart, Event.error, Event.isReading,
      isReadingEntry_missing]
  | true =>
    cases hl : files.listDirectory (directory dir) with
    | error fault =>
      simp [architecture, listing?, hd, hl, readingPart, Event.error, Event.isReading,
        isReadingEntry_unlisted, Except.toOption]
    | ok entries =>
      have hlist : ∀ events, readingPart (.list (directory dir) :: events) = readingPart events :=
        fun events => rfl
      simp [architecture, listing?, hd, hl, choose_eq, hlist, Except.toOption]

/-! ## One request -/

/-- The directory was asked for since the store was last cleared. -/
def wasAsked (history : List Moment) (dir : String) : Bool :=
  (sinceClear history).any fun earlier => earlier.asks dir

/-- The directory whose file is read at a moment after a history, if one is.  A query reads if it is
    the first one, and it does not matter whether the file could be read before. -/
def due? (history : List Moment) (now : Moment) : Option String :=
  match now.request with
  | .parse dir => some dir
  | request => request.dir?.filter fun dir => now.asks dir && !wasAsked history dir

/-- There is no first query of a directory that was not asked for. -/
theorem firstQuery?_eq_none_iff {history : List Moment} {dir : String} :
    firstQuery? history dir = none ↔ wasAsked history dir = false := by
  rw [firstQuery?, Option.map_eq_none_iff, List.find?_eq_none, wasAsked]
  simp

/-- A moment without a clearing after it is since the last one. -/
private theorem mem_sinceClear {before between : List Moment} {first : Moment}
    (hfirst : first.request ≠ .clear) (hbetween : ∀ moment ∈ between, moment.request ≠ .clear) :
    first ∈ sinceClear (before ++ first :: between) := by
  have hlast : ∀ moment ∈ (first :: between).reverse, decide (moment.request ≠ .clear) := by
    intro moment hmoment
    rcases List.mem_cons.mp (List.mem_reverse.mp hmoment) with rfl | hmoment
    · exact decide_eq_true hfirst
    · exact decide_eq_true (hbetween moment hmoment)
  rw [sinceClear, List.rtakeWhile, List.reverse_append,
    List.takeWhile_append_of_pos hlast]
  simp

/-- A query is not due again after one that came since the store was last cleared. -/
private theorem due?_of_asked {before between : List Moment} {first now : Moment} {dir : String}
    (hfirst : first.asks dir) (hnow : now.asks dir)
    (hbetween : ∀ moment ∈ between, moment.request ≠ .clear) :
    due? (before ++ first :: between) now = none := by
  have hclear : first.request ≠ .clear := by
    intro hclear
    simp [Moment.asks, hclear] at hfirst
  have hasked : wasAsked (before ++ first :: between) dir :=
    List.any_eq_true.mpr ⟨first, mem_sinceClear hclear hbetween, hfirst⟩
  -- Only a parse is due whatever was asked before, and a parse asks for nothing.
  obtain ⟨files, request⟩ := now
  cases request <;> simp_all [due?, Moment.asks, Request.dir?, Option.filter]

variable {store : Store} {history : List Moment}

/-- A query reads iff its directory was not asked for since the store was last cleared: the
    invariant tells so without the store. -/
private theorem queryEvents_of_remembers (h : Remembers store history) (files : FileSystem)
    (dir : String) :
    queryEvents files store dir =
      if wasAsked history dir then [] else readingEvents files dir := by
  -- What the store holds for the directory is what its first query found, if there was one.
  have hkept := h dir
  cases hasked : wasAsked history dir with
  | false =>
    rw [firstQuery?_eq_none_iff.mpr hasked] at hkept
    simp [queryEvents, hkept]
  | true =>
    have hsome : firstQuery? history dir ≠ none := by
      rw [Ne, firstQuery?_eq_none_iff, hasked]
      decide
    obtain ⟨options, hoptions⟩ := Option.ne_none_iff_exists'.mp hsome
    rw [hoptions] at hkept
    simp [queryEvents, hkept]

/-- What of a request's events is about reading: one reading, if one is due. -/
theorem readingPart_step (h : Remembers store history) (moment : Moment) :
    readingPart (store.step moment.files moment.request).events =
      (due? history moment).toList.flatMap (readingEvents moment.files) := by
  -- One case for each request: a parse reads, the others query, and clearing does nothing else.
  obtain ⟨files, request⟩ := moment
  cases request with
  | parse dir => simp [step, parse, Reply.map, load_eq, due?]
  | options dir =>
    simp only [step, Reply.map, query_eq, queryEvents_of_remembers h]
    cases hasked : wasAsked history dir <;>
      simp [due?, Request.dir?, Moment.asks, Option.filter, hasked]
  | value dir option =>
    simp only [step, value?, Reply.map, query_eq, queryEvents_of_remembers h]
    cases hasked : wasAsked history dir <;>
      simp [due?, Request.dir?, Moment.asks, Option.filter, hasked]
  | enabled dir option =>
    simp only [step, Reply.map, isEnabled_eq, queryEvents_of_remembers h]
    cases hasked : wasAsked history dir <;>
      simp [due?, Request.dir?, Moment.asks, Option.filter, hasked]
  | architecture dir =>
    simp only [step, Reply.map, readingPart_architecture, queryEvents_of_remembers h]
    cases hlisted : (listing? files dir).isSome <;> cases hasked : wasAsked history dir <;>
      simp [due?, Request.dir?, Moment.asks, Option.filter, hasked, hlisted]
  | clear => rfl

/-- Nothing but an inference and a reading makes events. -/
private theorem events_step_of_not_due (h : Remembers store history) {moment : Moment}
    (hdue : due? history moment = none) (hr : ∀ dir, moment.request ≠ .architecture dir) :
    (store.step moment.files moment.request).events = [] := by
  have hnone : readingPart (store.step moment.files moment.request).events = [] := by
    rw [readingPart_step h, hdue]
    rfl
  obtain ⟨files, request⟩ := moment
  -- All events of these requests are about reading.
  cases request with
  | parse dir => cases hdue
  | options dir => simpa [step, Reply.map, query_eq] using hnone
  | value dir option => simpa [step, value?, Reply.map, query_eq] using hnone
  | enabled dir option => simpa [step, Reply.map, isEnabled_eq] using hnone
  | architecture dir => exact absurd rfl (hr dir)
  | clear => rfl

/-! ## Runs -/

/-- The readings that are due in a run after a history, in order: the files as they are at that
    moment, and the directory. -/
def dueReadings (history : List Moment) : List Moment → List (FileSystem × String)
  | [] => []
  | now :: later =>
    ((due? history now).toList.map fun dir => (now.files, dir)) ++
      dueReadings (history ++ [now]) later

/-- **A run's readings**: what of its events is about reading is the readings that are due, in the
    order of the requests. -/
theorem readingPart_run (h : Remembers store history) (moments : List Moment) :
    readingPart ((store.run moments).flatMap Reply.events) =
      (dueReadings history moments).flatMap fun (files, dir) => readingEvents files dir := by
  -- The first request moves from the run to the history, and the store remembers it there.
  induction moments generalizing store history with
  | nil => rfl
  | cons moment later ih =>
    rw [run, List.flatMap_cons, readingPart_append, readingPart_step h, ih (h.step moment),
      dueReadings, List.flatMap_append, List.flatMap_map]

/-- Where no reading is due in a run, the reply is silent about reading, and silent altogether
    unless it is an inference. -/
private theorem events_run_of_not_due (h : Remembers store history) {moments : List Moment}
    {i : Nat}
    {moment : Moment} {reply : Reply Answer} (hm : moments[i]? = some moment)
    (hreply : (store.run moments)[i]? = some reply)
    (hdue : due? (history ++ moments.take i) moment = none) :
    readingPart reply.events = [] ∧
      ((∀ dir, moment.request ≠ .architecture dir) → reply.events = []) := by
  -- Induction on the moments, as for `readingPart_run`, towards the one at place `i`.
  induction moments generalizing store history i with
  | nil => cases hm
  | cons first later ih =>
    cases i with
    | zero =>
      cases hm
      cases hreply
      rw [List.take_zero, List.append_nil] at hdue
      refine ⟨?_, events_step_of_not_due h hdue⟩
      rw [readingPart_step h, hdue]
      rfl
    | succ i =>
      refine ih (h.step first) hm hreply ?_
      rwa [List.append_assoc]

/-- The paths that are read are those of the events about reading. -/
private theorem filterMap_readPath?_readingPart (events : List Event) :
    (readingPart events).filterMap Event.readPath? = events.filterMap Event.readPath? := by
  rw [readingPart, List.filterMap_filter]
  refine List.filterMap_congr fun event _ => ?_
  cases event with
  | read path => rfl
  | list path => rfl
  | log entry => simp [Event.readPath?]

/-- The paths that are read are those of the readings, in this order. -/
private theorem readPaths_readingEvents (readings : List (FileSystem × String)) :
    (readings.flatMap fun (files, dir) => readingEvents files dir).filterMap Event.readPath? =
      readings.map fun (_, dir) => DotConfig.file dir := by
  induction readings with
  | nil => rfl
  | cons reading readings ih =>
    rw [List.flatMap_cons, List.filterMap_append, ih]
    rfl

/-- The architectures are listed iff `arch` is a directory whose entries can be told. -/
private theorem isSome_listing?_iff {files : FileSystem} {dir : String} :
    (listing? files dir).isSome ↔ files.isDirectory (directory dir) ∧
      ∃ entries, files.listDirectory (directory dir) = .ok entries := by
  unfold listing?
  cases hd : files.isDirectory (directory dir) with
  | false => simp
  | true => cases hl : files.listDirectory (directory dir) <;> simp [Except.toOption]

/-- A message about reading says how many keys the file has, or that it could not be opened. -/
private theorem readingEntry_eq (files : FileSystem) (dir : String) :
    readingEntry files dir =
      match files.contents (DotConfig.file dir) with
      | .ok content =>
        ⟨.debug, "Parsed " ++ toString ((DotConfig.entries content).map Prod.fst).dedup.length ++
          " options from " ++ DotConfig.file dir⟩
      | .error fault =>
        ⟨.error, "Failed to open kernel config file " ++ DotConfig.file dir ++ fault.suffix⟩ := by
  cases h : files.contents (DotConfig.file dir) with
  | ok content => simp only [readingEntry, h, parsedMessage, DotConfig.options, Table.size_ofList]
  | error fault =>
    simp only [readingEntry, h]
    rfl

/-- The accounts of a store.  In a run of any requests over changing files, the files that are read
    are those of the readings that are due, in this order.  Each reading is followed by one message
    about it, and there are no other messages about reading.  An inference asks for its directory
    exactly if it can list the architectures.  What was asked for is not read again by a query
    before the store is cleared, whether it could be read or not.  Where no reading is due, nothing
    is read and nothing is said about reading, and if the request is no inference then nothing
    happens at all. -/
theorem readings_from_history (moments : List Moment) :
    let replies := Store.empty.run moments
    let events := replies.flatMap Reply.events
    events.filterMap Event.readPath? =
        (dueReadings [] moments).map (fun (_, dir) => Path.join [dir, ".config"]) ∧
      readingPart events =
        ((dueReadings [] moments).flatMap fun (files, dir) =>
          let path := Path.join [dir, ".config"]
          [.read path, .log (match files.contents path with
            | .ok content =>
              let keys := (DotConfig.entries content).map Prod.fst
              ⟨.debug, "Parsed " ++ toString keys.dedup.length ++ " options from " ++ path⟩
            | .error fault =>
              ⟨.error, "Failed to open kernel config file " ++ path ++ fault.suffix⟩)]) ∧
      (∀ files dir asked, (⟨files, .architecture dir⟩ : Moment).asks asked ↔
        asked = dir ∧ files.isDirectory (Path.join [dir, "arch"]) ∧
          ∃ entries, files.listDirectory (Path.join [dir, "arch"]) = .ok entries) ∧
      (∀ before first between now dir, first.asks dir → now.asks dir →
        (∀ moment ∈ between, moment.request ≠ .clear) →
          due? (before ++ first :: between) now = none) ∧
      ∀ i moment reply, moments[i]? = some moment → replies[i]? = some reply →
        due? (moments.take i) moment = none →
          readingPart reply.events = [] ∧
            ((∀ dir, moment.request ≠ .architecture dir) → reply.events = []) := by
  intro replies events
  have hpart := readingPart_run remembers_empty moments
  refine ⟨?_, ?_, ?_, ?_, ?_⟩
  · rw [← filterMap_readPath?_readingPart, hpart, readPaths_readingEvents]
    rfl
  · rw [hpart]
    simp only [readingEvents, readingEntry_eq]
    rfl
  · intro files dir asked
    simp only [Moment.asks, Bool.and_eq_true, decide_eq_true_eq, isSome_listing?_iff]
    exact and_congr_left' eq_comm
  · intro before first between now dir hfirst hnow hbetween
    exact due?_of_asked hfirst hnow hbetween
  · intro i moment reply hm hreply hdue
    exact events_run_of_not_due remembers_empty hm hreply hdue

end Store

end KconfigQuery
