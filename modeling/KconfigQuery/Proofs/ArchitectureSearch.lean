import KconfigQuery.Architecture.Inference
import KconfigQuery.Proofs.StoreQueries

/-! # The search for an architecture

The search goes through the listed entries and then through the aliases, and asks the store for
one option after the other.  Only the first of these questions can be a query that reads: after it
the directory is kept, and the rest of the search is a pure search in its options.  So the whole
search is a `find?` in the entries followed by one in the aliases, and what it logs is told by the
entries before the match.

* `scan_of_cached`        the scan of a kept directory is a `find?`
* `choose_eq`             the search among entries and aliases in closed form
* `architecture_search`   answer, store and events of the whole inference -/

namespace KconfigQuery.Store

open Architecture
open DotConfig (Options)

variable (files : FileSystem) (dir : String)

/-! ## What is looked for and what is said -/

/-- The entry ends the search: it has a `Kconfig` and its option is built in. -/
def selects (options : Options) (arch : String) : Bool :=
  hasKconfig files dir arch && DotConfig.builtIn options (option arch)

/-- The entries that stand before the first one that ends the search; all if none does. -/
def passedOver (options : Options) (entries : List String) : List String :=
  entries.takeWhile fun arch => !selects files dir options arch

/-- The messages about those of the entries that have no `Kconfig`. -/
def skipEvents (entries : List String) : List Event :=
  (entries.filter fun arch => !hasKconfig files dir arch).map fun arch =>
    .debug (skippedMessage arch)

/-- The message about a search without success. -/
def verdictEvents (arch? : Option String) : List Event :=
  match arch? with
  | some _ => []
  | none => [.error (undecidedMessage dir)]

/-! ## A directory that is kept -/

section Cached

variable {store : Store} {dir} {options : Options} (h : store.cache.get? dir = some options)
include h

/-- The scan of a kept directory stops at the first entry that is selected, and tells of those
    before it that have no `Kconfig`. -/
theorem scan_of_cached (entries : List String) :
    store.scan files dir entries =
      ⟨entries.find? (selects files dir options), store,
        skipEvents files dir (passedOver files dir options entries)⟩ := by
  -- No question reads, so the scan is a search in the options.
  induction entries with
  | nil => rfl
  | cons arch rest ih =>
    cases hk : hasKconfig files dir arch with
    | false => simp [scan, hk, ih, selects, passedOver, skipEvents]
    | true =>
      cases hb : DotConfig.builtIn options (option arch) with
      | true => simp [scan, hk, hb, isEnabled_of_cached files h, selects, passedOver, skipEvents]
      | false =>
        simp [scan, hk, hb, isEnabled_of_cached files h, ih, selects, passedOver, skipEvents]

/-- Whether some option is built in is looked up in what is kept. -/
private theorem anyEnabled_of_cached (wanted : List String) :
    store.anyEnabled files dir wanted = ⟨wanted.any (DotConfig.builtIn options), store, []⟩ := by
  induction wanted with
  | nil => rfl
  | cons option rest ih =>
    cases hb : DotConfig.builtIn options option <;>
      simp [anyEnabled, isEnabled_of_cached files h, hb, ih]

/-- The first alias with an option that is built in is found in what is kept. -/
private theorem tryAliases_of_cached (rows : List Alias) :
    store.tryAliases files dir rows =
      ⟨(rows.find? fun row => row.options.any (DotConfig.builtIn options)).map (·.arch),
        store, []⟩ := by
  induction rows with
  | nil => rfl
  | cons row rest ih =>
    cases ha : row.options.any (DotConfig.builtIn options) <;>
      simp [tryAliases, anyEnabled_of_cached files h, ha, ih]

end Cached

/-! ## Any directory -/

section Any

variable (store : Store)

/-- An entry with a `Kconfig` makes the query, and what follows it finds the directory kept. -/
private theorem scan_cons_of_hasKconfig {arch : String} (hk : hasKconfig files dir arch)
    (rest : List String) :
    store.scan files dir (arch :: rest) =
      ⟨(arch :: rest).find? (selects files dir (known files store dir)), queried files store dir,
        queryEvents files store dir ++
          skipEvents files dir (passedOver files dir (known files store dir) (arch :: rest))⟩ := by
  have hcached : (queried files store dir).cache.get? dir = some (known files store dir) := by
    simp
  -- The question about this entry is the query; the rest of the scan finds the directory kept.
  simp only [scan, hk, if_true, isEnabled_eq]
  cases hb : DotConfig.builtIn (known files store dir) (option arch) with
  | true => simp [selects, hk, hb, passedOver, skipEvents]
  | false => simp [scan_of_cached files hcached, selects, hk, hb, passedOver, skipEvents]

/-- Asking for at least one option makes the query. -/
private theorem anyEnabled_cons (first : String) (rest : List String) :
    store.anyEnabled files dir (first :: rest) =
      ⟨(first :: rest).any (DotConfig.builtIn (known files store dir)), queried files store dir,
        queryEvents files store dir⟩ := by
  have hcached : (queried files store dir).cache.get? dir = some (known files store dir) := by
    simp
  -- The question about the first option is the query.
  simp only [anyEnabled, isEnabled_eq]
  cases hb : DotConfig.builtIn (known files store dir) first with
  | true => simp [hb]
  | false => simp [anyEnabled_of_cached files hcached, hb]

/-- Trying the aliases makes the query, whichever of them is found. -/
private theorem tryAliases_aliases :
    store.tryAliases files dir aliases =
      ⟨selectedAlias? (DotConfig.builtIn (known files store dir)), queried files store dir,
        queryEvents files store dir⟩ := by
  have hcached : (queried files store dir).cache.get? dir = some (known files store dir) := by
    simp
  -- The first row asks for an option, so the query is made there.
  obtain ⟨row, rest, first, wanted, hrows, hwanted⟩ :
      ∃ row rest first wanted, aliases = row :: rest ∧ row.options = first :: wanted :=
    ⟨_, _, _, _, rfl, rfl⟩
  rw [selectedAlias?, hrows]
  simp only [tryAliases, hwanted, anyEnabled_cons]
  cases ha : row.options.any (DotConfig.builtIn (known files store dir)) with
  | true => simp [← hwanted, ha]
  | false => simp [tryAliases_of_cached files hcached, ← hwanted, ha]

/-- The aliases decide what the entries do not, and it is told if they decide nothing. -/
private theorem fallBack_eq :
    store.fallBack files dir =
      ⟨selectedAlias? (DotConfig.builtIn (known files store dir)), queried files store dir,
        queryEvents files store dir ++
          verdictEvents dir (selectedAlias? (DotConfig.builtIn (known files store dir)))⟩ := by
  -- There is a verdict only where no alias is found.
  unfold fallBack
  rw [tryAliases_aliases]
  cases h : selectedAlias? (DotConfig.builtIn (known files store dir)) <;>
    simp [verdictEvents]

/-- Where the directory is kept the aliases decide without a query. -/
private theorem fallBack_of_cached {store : Store} {dir : String} {options : Options}
    (h : store.cache.get? dir = some options) :
    store.fallBack files dir =
      ⟨selectedAlias? (DotConfig.builtIn options), store,
        verdictEvents dir (selectedAlias? (DotConfig.builtIn options))⟩ := by
  -- A query of a kept directory changes nothing and tells nothing.
  obtain ⟨hknown, hqueried, hevents⟩ := outcome_of_cached files h
  rw [fallBack_eq, hknown, hqueried, hevents, List.nil_append]

/-- An entry without `Kconfig` asks the store for nothing. -/
private theorem choose_cons_of_bare {arch : String} (hk : hasKconfig files dir arch = false)
    (rest : List String) :
    store.choose files dir (arch :: rest) =
      ⟨(store.choose files dir rest).answer, (store.choose files dir rest).store,
        .debug (skippedMessage arch) :: (store.choose files dir rest).events⟩ := by
  simp only [choose, scan, hk, Bool.false_eq_true, if_false]
  cases (store.scan files dir rest).answer <;> rfl

/-- The entries up to the first one with a `Kconfig` come before the query, the others that are
    passed over come after it. -/
theorem choose_eq (entries : List String) :
    let options := known files store dir
    let answer := (entries.find? (selects files dir options)).or
      (selectedAlias? (DotConfig.builtIn options))
    let passed := passedOver files dir options entries
    store.choose files dir entries =
      ⟨answer, queried files store dir,
        skipEvents files dir (passed.takeWhile fun arch => !hasKconfig files dir arch) ++
          queryEvents files store dir ++
          skipEvents files dir (passed.dropWhile fun arch => !hasKconfig files dir arch) ++
          verdictEvents dir answer⟩ := by
  -- The query is made at the first entry with a Kconfig, or among the aliases if there is none.
  induction entries with
  | nil =>
    simp only [choose, scan, fallBack_eq]
    simp [passedOver, skipEvents]
  | cons arch rest ih =>
    cases hk : hasKconfig files dir arch with
    | false =>
      -- The entry is passed over before the query.
      have hsel : selects files dir (known files store dir) arch = false := by simp [selects, hk]
      rw [choose_cons_of_bare files dir store hk, ih]
      simp [passedOver, hsel, hk, skipEvents]
    | true =>
      have hcached : (queried files store dir).cache.get? dir = some (known files store dir) := by
        simp
      -- What is passed over is nothing, or else it starts with this entry.
      have hpassed : ∀ passed,
          passedOver files dir (known files store dir) (arch :: rest) = passed →
          passed.takeWhile (fun arch => !hasKconfig files dir arch) = [] ∧
          passed.dropWhile (fun arch => !hasKconfig files dir arch) = passed := by
        rintro passed rfl
        cases hs : selects files dir (known files store dir) arch <;>
          simp [passedOver, hs, hk]
      obtain ⟨htake, hdrop⟩ := hpassed _ rfl
      simp only [htake, hdrop, choose, scan_cons_of_hasKconfig files dir store hk]
      cases hf : (arch :: rest).find? (selects files dir (known files store dir)) with
      -- An entry decides, so the aliases are not tried.
      | some found => simp [skipEvents, verdictEvents]
      | none => simp [fallBack_of_cached files hcached, skipEvents]

end Any

/-! ## The whole inference -/

/-- The inference of an architecture in closed form.  Without a directory `arch` that can be listed
    there is one error, and neither the store changes nor is a configuration read.  Otherwise the
    answer is the first entry with a `Kconfig` whose option is built in, or else the first alias
    one of whose options is.  The reading of a directory that is not kept, with its one message,
    stands after the entries without `Kconfig` that come before all entries with one. -/
theorem architecture_search (store : Store) :
    store.architecture files dir =
      if files.isDirectory (directory dir) then
        match files.listDirectory (directory dir) with
        | .error fault =>
          ⟨none, store, [.list (directory dir), .error (unlistedMessage (directory dir) fault)]⟩
        | .ok entries =>
          let kept? := store.cache.get? dir
          let options := kept?.getD (current files dir)
          let isBare := fun arch => !hasKconfig files dir arch
          let isMatch := fun arch =>
            hasKconfig files dir arch && options.get? ("CONFIG_" ++ Text.upper arch) = some "y"
          let isSelected := fun row : Alias =>
            row.options.any fun option => options.get? option = some "y"
          let answer := (entries.find? isMatch).or ((aliases.find? isSelected).map (·.arch))
          let passed := entries.takeWhile fun arch => !isMatch arch
          let skipped := fun archs : List String =>
            (archs.filter isBare).map fun arch => Event.debug (skippedMessage arch)
          let reading := [.read (DotConfig.file dir), .log (readingEntry files dir)]
          let verdict := if answer.isNone then [.error (undecidedMessage dir)] else []
          { answer
            store := if kept?.isNone then ⟨store.cache.put dir options⟩ else store
            events := .list (directory dir) :: skipped (passed.takeWhile isBare) ++
              (if kept?.isNone then reading else []) ++ skipped (passed.dropWhile isBare) ++
              verdict }
      else ⟨none, store, [.error (missingMessage dir)]⟩ := by
  cases hd : files.isDirectory (directory dir) with
  | false => simp [architecture, hd]
  | true =>
    cases hl : files.listDirectory (directory dir) with
    | error fault => simp [architecture, hd, hl]
    | ok entries =>
      have hverdict : ∀ arch? : Option String,
          verdictEvents dir arch? =
            if arch?.isNone then [.error (undecidedMessage dir)] else [] := by
        intro arch?
        cases arch? <;> rfl
      simp only [architecture, hd, hl, if_true, choose_eq, hverdict]
      -- The directory is kept and nothing is read, or it is read now and kept.
      cases hkept : store.cache.get? dir with
      | some options =>
        obtain ⟨hknown, hqueried, hevents⟩ := outcome_of_cached files hkept
        rw [hknown, hqueried, hevents]
        rfl
      | none =>
        obtain ⟨hknown, hqueried, hevents⟩ := outcome_of_uncached files hkept
        rw [hknown, hqueried, hevents]
        rfl

end KconfigQuery.Store
