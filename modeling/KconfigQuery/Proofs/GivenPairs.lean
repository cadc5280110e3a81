import KconfigQuery.Settings.Storage

/-! # Pairs that are given

A change is given names with texts.  Each pair is judged by itself, and the first one that is
refused stops the change.  If none is, every setting that was given has the text given last, and
every other one keeps its text.

* `set_eq_error_iff`    the first pair that is refused tells the problem
* `exists_set_iff`      a change is accepted exactly if each pair is
* `get?_of_set_eq`      the texts of the changed record
* `stopped?_store`      whether a record can be written does not depend on the record -/

namespace KconfigQuery.Settings

open Text (Wide)

/-! ## Judging a pair -/

/-- The problem with a pair, if there is one. -/
def pairProblem? (pair : String × String) : Option Problem :=
  match Key.ofName? pair.1 with
  | none => some (.unknownKey pair.1)
  | some key => key.problem? pair.2

/-- A kernel directory has to be absolute, or nothing. -/
theorem problem?_kdir_eq_none_iff {text : String} :
    Key.kdir.problem? text = none ↔ text = "" ∨ Path.isAbsolute text := by
  simp only [Key.problem?, kdirOf]
  by_cases he : text = ""
  · simp [he]
  · by_cases ha : Path.isAbsolute text <;> simp [he, ha]

/-- The verbosity has to be one of two words, or nothing. -/
theorem problem?_verbose_eq_none_iff {text : String} :
    Key.verbose.problem? text = none ↔ text = "" ∨ text = "true" ∨ text = "false" := by
  simp only [Key.problem?, verboseOf]
  by_cases he : text = ""
  · simp [he]
  · by_cases ht : text = "true"
    · simp [ht]
    · by_cases hf : text = "false" <;> simp [he, ht, hf]

/-- The one thing that can be wrong with a text for a setting. -/
def Key.problem : Key → Problem
  | kdir => .relativeKdir
  | verbose => .notBoolean

/-- A text for a setting can be wrong in one way only. -/
theorem Key.eq_problem_of_problem? {key : Key} {text : String} {problem : Problem}
    (h : key.problem? text = some problem) : problem = key.problem := by
  cases key with
  | kdir =>
    by_cases he : text = "" <;> by_cases ha : Path.isAbsolute text <;>
      simp_all [Key.problem?, kdirOf, Key.problem]
  | verbose =>
    by_cases he : text = "" <;> by_cases ht : text = "true" <;> by_cases hf : text = "false" <;>
      simp_all [Key.problem?, verboseOf, Key.problem]

/-- A setting of this name accepts the text. -/
def Accepted (name text : String) : Prop :=
  name = "kdir" ∧ (text = "" ∨ Path.isAbsolute text) ∨
    name = "verbose" ∧ (text = "" ∨ text = "true" ∨ text = "false")

/-- A pair is accepted exactly if there is no problem with it. -/
theorem pairProblem?_eq_none_iff {name text : String} :
    pairProblem? (name, text) = none ↔ Accepted name text := by
  unfold pairProblem? Accepted
  -- A name that is none of a setting accepts nothing.
  cases hkey : Key.ofName? name with
  | none =>
    obtain ⟨hkdir, hverbose⟩ := Key.ofName?_eq_none_iff.mp hkey
    simp [hkdir, hverbose]
  | some key =>
    obtain rfl := Key.ofName?_eq_some_iff.mp hkey
    cases key with
    | kdir => simp [problem?_kdir_eq_none_iff, Key.name]
    | verbose => simp [problem?_verbose_eq_none_iff, Key.name]

/-- For a setting that is known, the text alone is judged. -/
theorem accepted_name_iff {key : Key} {text : String} :
    Accepted key.name text ↔ key.problem? text = none := by
  rw [← pairProblem?_eq_none_iff, pairProblem?, Key.ofName?_eq_some_iff.mpr rfl]

instance (name text : String) : Decidable (Accepted name text) :=
  decidable_of_iff _ pairProblem?_eq_none_iff

/-- The text that is given last for a setting. -/
def lastGiven? (key : Key) (pairs : List (String × String)) : Option String :=
  ((pairs.filter fun pair => pair.1 = key.name).getLast?).map Prod.snd

/-- What is given later comes over what is given earlier. -/
theorem lastGiven?_append (key : Key) (pairs more : List (String × String)) :
    lastGiven? key (pairs ++ more) = (lastGiven? key more).or (lastGiven? key pairs) := by
  simp only [lastGiven?, List.filter_append, List.getLast?_append]
  cases (more.filter fun pair => pair.1 = key.name).getLast? <;> rfl

/-- The first pair counts if no later one is for the same setting. -/
theorem lastGiven?_cons (key : Key) (pair : String × String) (pairs : List (String × String)) :
    lastGiven? key (pair :: pairs) =
      (lastGiven? key pairs).or (if pair.1 = key.name then some pair.2 else none) := by
  have hone : lastGiven? key [pair] = if pair.1 = key.name then some pair.2 else none := by
    by_cases hname : pair.1 = key.name <;> simp [lastGiven?, hname]
  rw [← hone, ← lastGiven?_append, List.singleton_append]

/-- The text that is given last is one that is given. -/
theorem mem_of_lastGiven? {key : Key} {pairs : List (String × String)} {text : String}
    (h : lastGiven? key pairs = some text) : (key.name, text) ∈ pairs := by
  obtain ⟨⟨name, text⟩, hlast, rfl⟩ := Option.map_eq_some_iff.mp h
  -- The last one of the pairs with this name is one of the pairs.
  have hmem := List.mem_filter.mp (List.mem_of_getLast? hlast)
  obtain rfl : name = key.name := by simpa using hmem.2
  exact hmem.1

/-! ## Judging all pairs -/

/-- A pair that is refused ends the change. -/
private theorem set_cons_of_refused {raw : Raw} {pair : String × String} {problem : Problem}
    (h : pairProblem? pair = some problem) (pairs : List (String × String)) :
    raw.set (pair :: pairs) = .error problem := by
  obtain ⟨name, text⟩ := pair
  unfold pairProblem? at h
  rw [Raw.set]
  split at h
  · next hkey => cases h; simp [hkey]
  · next key hkey => simp [hkey, h]

/-- A pair that is accepted is put in, and the change goes on. -/
theorem set_cons_of_accepted {pair : String × String} (h : pairProblem? pair = none) (raw : Raw)
    (pairs : List (String × String)) :
    ∃ key : Key, pair.1 = key.name ∧ key.problem? pair.2 = none ∧
      raw.set (pair :: pairs) = Raw.set (raw.put key (.ofString pair.2)) pairs := by
  obtain ⟨name, text⟩ := pair
  unfold pairProblem? at h
  rw [Raw.set]
  split at h
  · cases h
  · next key hkey => exact ⟨key, Key.ofName?_eq_some_iff.mp hkey, h, by simp [hkey, h]⟩

/-- A change is refused for the problem with the first pair that has one. -/
theorem set_eq_error_iff {raw : Raw} {pairs : List (String × String)} {problem : Problem} :
    raw.set pairs = .error problem ↔ pairs.findSome? pairProblem? = some problem := by
  induction pairs generalizing raw with
  | nil => simp [Raw.set]
  | cons pair pairs ih =>
    -- A pair that is refused ends the change and the search alike.
    cases hpair : pairProblem? pair with
    | some found => simp [set_cons_of_refused hpair, hpair]
    | none =>
      obtain ⟨key, -, -, hset⟩ := set_cons_of_accepted hpair raw pairs
      rw [hset, ih, List.findSome?_cons, hpair]

/-- A change is accepted exactly if each of its pairs is. -/
theorem exists_set_iff {raw : Raw} {pairs : List (String × String)} :
    (∃ changed, raw.set pairs = .ok changed) ↔ ∀ pair ∈ pairs, Accepted pair.1 pair.2 := by
  simp only [← pairProblem?_eq_none_iff]
  rw [← List.findSome?_eq_none_iff]
  -- The change is accepted or refused, and it is refused exactly for a first problem.
  cases hset : raw.set pairs with
  | ok changed =>
    have hnone : pairs.findSome? pairProblem? = none := by
      cases hfound : pairs.findSome? pairProblem? with
      | none => rfl
      | some problem =>
        rw [set_eq_error_iff.mpr hfound] at hset
        cases hset
    simp [hnone]
  | error problem => simp [set_eq_error_iff.mp hset]

/-- Where a change goes through, its first pair is accepted. -/
theorem pairProblem?_of_set_cons {raw changed : Raw} {pair : String × String}
    {pairs : List (String × String)} (h : raw.set (pair :: pairs) = .ok changed) :
    pairProblem? pair = none :=
  pairProblem?_eq_none_iff.mpr (exists_set_iff.mp ⟨changed, h⟩ pair List.mem_cons_self)

/-- A setting has the text that was given last, or else the one that it had. -/
theorem get?_of_set_eq {raw changed : Raw} {pairs : List (String × String)}
    (h : raw.set pairs = .ok changed) (key : Key) :
    changed.get? key = ((lastGiven? key pairs).map Wide.ofString).or (raw.get? key) := by
  induction pairs generalizing raw with
  | nil =>
    cases h
    rfl
  | cons pair pairs ih =>
    obtain ⟨other, hname, -, hset⟩ :=
      set_cons_of_accepted (pairProblem?_of_set_cons h) raw pairs
    -- The first pair is put in before the others, so what they give comes over it.
    rw [ih (hset ▸ h), Table.get?_put, lastGiven?_cons, hname]
    cases lastGiven? key pairs with
    | some text => rfl
    | none =>
      by_cases hkey : key = other
      · simp [hkey]
      · have hother : other.name ≠ key.name := fun heq => hkey (Key.name_injective heq).symm
        simp [hkey, hother]

/-- The text that was given last is accepted where the change went through. -/
theorem accepted_of_lastGiven? {raw changed : Raw} {pairs : List (String × String)} {key : Key}
    {text : String} (h : raw.set pairs = .ok changed) (hlast : lastGiven? key pairs = some text) :
    key.problem? text = none := by
  have hpair := exists_set_iff.mp ⟨changed, h⟩ (key.name, text) (mem_of_lastGiven? hlast)
  exact accepted_name_iff.mp hpair

/-- The text of a setting is the one that was given last, or else the one that it had. -/
theorem text_of_set_eq {raw changed : Raw} {pairs : List (String × String)}
    (h : raw.set pairs = .ok changed) (key : Key) :
    changed.text key = (lastGiven? key pairs).getD (raw.text key) := by
  rw [Raw.text, get?_of_set_eq h]
  cases lastGiven? key pairs with
  | none => rfl
  | some text => simp

/-! ## Writing -/

/-- Whether a record can be written depends on the settings file alone. -/
theorem stopped?_store (tree : FileTree) (env : Environment) (raw other : Raw) :
    (store tree env raw).stopped? = (store tree env other).stopped? := by
  unfold store
  split
  · next path _ =>
    simp only [storeAt]
    split
    · rfl
    · -- Where the text goes is found before the text is looked at.
      simp only [FileTree.writeFile]
      cases FileTree.locate _ env.workingDir .file path with
      | error cause => rfl
      | ok destination =>
        cases destination with
        | found place node => cases node <;> rfl
        | vacant directory name slashed => cases slashed <;> rfl
        | removed => rfl
  · rfl

/-- The settings file can be written. -/
def CanStore (tree : FileTree) (env : Environment) : Prop :=
  (store tree env .empty).stopped? = none

/-- Where some record can be written every record can. -/
theorem CanStore.stopped? {tree : FileTree} {env : Environment} (h : CanStore tree env)
    (raw : Raw) : (store tree env raw).stopped? = none :=
  (stopped?_store tree env raw .empty).trans h

/-- Where a change went through, the settings file can be written. -/
theorem canStore_of_change {tree after : FileTree} {env : Environment}
    {pairs : List (String × String)} (h : change tree env pairs = ⟨after, none⟩) :
    CanStore tree env := by
  unfold change at h
  split at h
  · cases h
  · split at h
    · cases h
    · next raw _ =>
      -- The record of the change was written, so the empty one could be.
      have hstopped := congrArg FileTree.Attempt.stopped? h
      simp only [FileTree.Attempt.mapError, Option.map_eq_none_iff] at hstopped
      exact (stopped?_store tree env .empty raw).trans hstopped

end KconfigQuery.Settings
