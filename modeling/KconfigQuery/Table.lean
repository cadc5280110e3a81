/-! # Tables that remember their order

A table maps keys to values and keeps its keys in the order in which they first came.  Storing
under a key that is there already exchanges the value and leaves the key in its place.

The view of a table is its list of pairs, `entries`, in which no key stands twice.

* `get?_put`           the value just stored is found, every other key is as before
* `keys_put`           a new key goes to the end, a known one keeps its place
* `get?_eq_some_iff`   a value is found exactly when the pair is in the table
* `entries_ofList_of_nodup`   pairs with distinct keys make a table of just these pairs
* `ext_of_get?`        keys in their order and what is found for each make up a table
* `get?_overlay`       what is laid over a table is found first
* `overlay_assoc`      of three tables, it does not matter which two are laid over each other
                       first -/

namespace KconfigQuery

/-- An insertion-ordered map. -/
structure Table (κ β : Type) where
  entries : List (κ × β)
  distinct : (entries.map Prod.fst).Nodup := by simp

namespace Table

variable {κ β : Type}

/-- A table is its list of pairs. -/
theorem ext {t u : Table κ β} (h : t.entries = u.entries) : t = u := by
  cases t; cases u; cases h; rfl

/-- The table without entries. -/
def empty : Table κ β where
  entries := []

instance : Inhabited (Table κ β) := ⟨empty⟩

/-- The keys, oldest first. -/
def keys (t : Table κ β) : List κ := t.entries.map Prod.fst

/-- The values, in the order of their keys. -/
def values (t : Table κ β) : List β := t.entries.map Prod.snd

/-- The number of keys. -/
def size (t : Table κ β) : Nat := t.entries.length

theorem nodup_keys (t : Table κ β) : t.keys.Nodup := t.distinct

@[simp] theorem keys_empty : (empty : Table κ β).keys = [] := rfl

variable [DecidableEq κ]

/-! ## Looking up -/

/-- The value stored under a key. -/
def get? (t : Table κ β) (key : κ) : Option β :=
  (t.entries.find? (·.1 = key)).map (·.2)

@[simp] theorem get?_empty (key : κ) : (empty : Table κ β).get? key = none := rfl

/-- Where no key stands twice, a pair is the first one with its key. -/
private theorem find?_eq_some_of_mem {entries : List (κ × β)}
    (hd : (entries.map Prod.fst).Nodup) {key : κ} {value : β} (h : (key, value) ∈ entries) :
    entries.find? (·.1 = key) = some (key, value) := by
  induction entries with
  | nil => simp at h
  | cons e es ih =>
    rw [List.map_cons, List.nodup_cons] at hd
    rcases List.mem_cons.mp h with rfl | h
    · simp
    · -- Were it an earlier pair with the same key, the key would stand twice.
      have hne : e.1 ≠ key := fun he =>
        hd.1 (he ▸ List.mem_map.mpr ⟨(key, value), h, rfl⟩)
      rw [List.find?_cons_of_neg (by simpa using hne), ih hd.2 h]

/-- **Looking up**: a value is found for a key iff the pair is in the table. -/
theorem get?_eq_some_iff {t : Table κ β} {key : κ} {value : β} :
    t.get? key = some value ↔ (key, value) ∈ t.entries := by
  constructor
  · intro h
    obtain ⟨⟨k, v⟩, hf, rfl⟩ := Option.map_eq_some_iff.mp h
    have hk : k = key := by simpa using List.find?_some hf
    exact hk ▸ List.mem_of_find?_eq_some hf
  · intro h
    simp [get?, find?_eq_some_of_mem t.distinct h]

/-- Nothing is found iff the key is not in the table. -/
theorem get?_eq_none_iff {t : Table κ β} {key : κ} : t.get? key = none ↔ key ∉ t.keys := by
  simp only [get?, Option.map_eq_none_iff, List.find?_eq_none, keys, List.mem_map, not_exists,
    not_and]
  constructor
  · intro h e he hk; exact h e he (by simp [hk])
  · intro h e he hk; exact h e he (by simpa using hk)

theorem mem_values_of_get? {t : Table κ β} {key : κ} {value : β} (h : t.get? key = some value) :
    value ∈ t.values :=
  List.mem_map_of_mem (get?_eq_some_iff.mp h)

/-- Tables with the same keys in the same order and with the same value for each are the same. -/
theorem ext_of_get? {t u : Table κ β} (hkeys : t.keys = u.keys)
    (hget : ∀ key, t.get? key = u.get? key) : t = u := by
  -- The keys and what is found for each give the pairs back.
  have hentries : ∀ v : Table κ β,
      v.keys.map (fun key => (v.get? key).map fun value => (key, value)) = v.entries.map some := by
    intro v
    rw [keys, List.map_map]
    apply List.map_congr_left
    intro entry hentry
    simp [get?_eq_some_iff.mpr hentry]
  apply ext
  apply (List.map_inj_right fun _ _ => Option.some.inj).mp
  rw [← hentries t, ← hentries u, hkeys]
  simp only [hget]

/-! ## Storing -/

/-- The pairs after storing a value. -/
def putEntries (key : κ) (value : β) : List (κ × β) → List (κ × β)
  | [] => [(key, value)]
  | e :: es => if e.1 = key then (key, value) :: es else e :: putEntries key value es

/-- Storing keeps the keys in their order, and a new one goes to the end. -/
private theorem keys_putEntries (key : κ) (value : β) (entries : List (κ × β)) :
    (putEntries key value entries).map Prod.fst =
      if key ∈ entries.map Prod.fst then entries.map Prod.fst
      else entries.map Prod.fst ++ [key] := by
  induction entries with
  | nil => simp [putEntries]
  | cons e es ih =>
    -- The value is exchanged at the first pair with the key, which is the only one.
    by_cases he : e.1 = key
    · simp [putEntries, he]
    · simp only [putEntries, if_neg he, List.map_cons, ih, List.mem_cons, Ne.symm he, false_or]
      split <;> rfl

/-- Store a value under a key. -/
def put (t : Table κ β) (key : κ) (value : β) : Table κ β where
  entries := putEntries key value t.entries
  distinct := by
    rw [keys_putEntries]
    split
    · exact t.distinct
    · next h =>
      -- The new key is none of the old ones.
      rw [List.nodup_append]
      refine ⟨t.distinct, by simp, ?_⟩
      intro a ha b hb hab
      rw [List.mem_singleton] at hb
      exact h (hb ▸ hab ▸ ha)

/-- A known key keeps its place, and a new one goes to the end. -/
theorem keys_put (t : Table κ β) (key : κ) (value : β) :
    (t.put key value).keys = if key ∈ t.keys then t.keys else t.keys ++ [key] :=
  keys_putEntries key value t.entries

/-- **After storing** the value is found under its key, and other keys are as before. -/
theorem get?_put (t : Table κ β) (key : κ) (value : β) (other : κ) :
    (t.put key value).get? other = if other = key then some value else t.get? other := by
  simp only [get?, put]
  induction t.entries with
  | nil =>
    by_cases h : other = key
    · simp [putEntries, h]
    · simp [putEntries, h, Ne.symm h]
  | cons e es ih =>
    by_cases he : e.1 = key
    · by_cases h : other = key
      · simp [putEntries, he, h]
      · simp [putEntries, he, h, Ne.symm h]
    · rw [putEntries, if_neg he]
      by_cases ho : e.1 = other
      · have : other ≠ key := fun h => he (ho.trans h)
        simp [ho, this]
      · simpa [List.find?_cons, ho] using ih

/-- Of two values stored under one key, the second one counts. -/
theorem put_put (t : Table κ β) (key : κ) (value other : β) :
    (t.put key value).put key other = t.put key other := by
  have hentries : ∀ entries : List (κ × β),
      putEntries key other (putEntries key value entries) = putEntries key other entries := by
    intro entries
    induction entries with
    | nil => simp [putEntries]
    | cons e es ih =>
      by_cases he : e.1 = key
      · simp [putEntries, he]
      · simp [putEntries, he, ih]
  exact ext (hentries t.entries)

/-- Drop the entries whose key satisfies `p`. -/
def eraseWhere (t : Table κ β) (p : κ → Bool) : Table κ β where
  entries := t.entries.filter fun entry => !p entry.1
  distinct := t.distinct.sublist (List.filter_sublist.map Prod.fst)

/-- Store pairs one after the other. -/
def putAll (t : Table κ β) (pairs : List (κ × β)) : Table κ β :=
  pairs.foldl (fun t pair => t.put pair.1 pair.2) t

/-- The table of a list of pairs: the first occurrence of a key fixes its place, the last one
    its value. -/
def ofList (pairs : List (κ × β)) : Table κ β :=
  empty.putAll pairs

/-- The second table laid over the first. -/
def overlay (t u : Table κ β) : Table κ β :=
  t.putAll u.entries

/-! ### What storing does to the pairs -/

/-- A new pair goes to the end. -/
theorem entries_put_of_notMem {t : Table κ β} {key : κ} (h : key ∉ t.keys) (value : β) :
    (t.put key value).entries = t.entries ++ [(key, value)] := by
  have hput : ∀ entries : List (κ × β), key ∉ entries.map Prod.fst →
      putEntries key value entries = entries ++ [(key, value)] := by
    intro entries hkey
    induction entries with
    | nil => rfl
    | cons e es ih =>
      simp only [List.map_cons, List.mem_cons, not_or] at hkey
      simp [putEntries, Ne.symm hkey.1, ih hkey.2]
  exact hput t.entries h

/-- A pair after storing is the new one or one that was there. -/
theorem eq_or_mem_of_mem_put {t : Table κ β} {key : κ} {value : β} {entry : κ × β}
    (h : entry ∈ (t.put key value).entries) : entry = (key, value) ∨ entry ∈ t.entries := by
  -- A pair is in a table iff its value is found, so that this is about looking up.
  have hget : (t.put key value).get? entry.1 = some entry.2 := get?_eq_some_iff.mpr h
  rw [get?_put] at hget
  split at hget
  · next hkey => exact .inl (Prod.ext hkey (Option.some.inj hget).symm)
  · exact .inr (get?_eq_some_iff.mp hget)

/-- A pair after storing many was there or is one of them. -/
theorem mem_or_mem_of_mem_putAll {t : Table κ β} {pairs : List (κ × β)} {entry : κ × β}
    (h : entry ∈ (t.putAll pairs).entries) : entry ∈ t.entries ∨ entry ∈ pairs := by
  induction pairs generalizing t with
  | nil => exact .inl h
  | cons pair pairs ih =>
    rcases ih h with h | h
    · rcases eq_or_mem_of_mem_put h with rfl | h
      · exact .inr List.mem_cons_self
      · exact .inl h
    · exact .inr (List.mem_cons_of_mem _ h)

/-- A key after storing many pairs was there or is that of one of them. -/
theorem mem_keys_putAll {t : Table κ β} {pairs : List (κ × β)} {key : κ} :
    key ∈ (t.putAll pairs).keys ↔ key ∈ t.keys ∨ key ∈ pairs.map Prod.fst := by
  induction pairs generalizing t with
  | nil => simp [putAll]
  | cons pair pairs ih =>
    have hput : key ∈ (t.put pair.1 pair.2).keys ↔ key ∈ t.keys ∨ key = pair.1 := by
      rw [keys_put]
      by_cases hpair : pair.1 ∈ t.keys
      · rw [if_pos hpair]
        exact ⟨.inl, fun h => h.elim id fun hkey => hkey ▸ hpair⟩
      · rw [if_neg hpair]
        simp
    have hrest : key ∈ (t.putAll (pair :: pairs)).keys ↔ _ := ih (t := t.put pair.1 pair.2)
    rw [hrest, hput, List.map_cons, List.mem_cons, or_assoc]

/-- Pairs with keys of their own go to the end as they are. -/
theorem entries_putAll_of_nodup {t : Table κ β} {pairs : List (κ × β)}
    (h : (t.keys ++ pairs.map Prod.fst).Nodup) :
    (t.putAll pairs).entries = t.entries ++ pairs := by
  induction pairs generalizing t with
  | nil => simp [putAll]
  | cons pair pairs ih =>
    have hkey : pair.1 ∉ t.keys := by
      rw [List.nodup_append] at h
      exact fun hmem => h.2.2 _ hmem _ List.mem_cons_self rfl
    have hkeys : (t.put pair.1 pair.2).keys = t.keys ++ [pair.1] := by
      rw [keys_put, if_neg hkey]
    have hnext := ih (t := t.put pair.1 pair.2) (by rw [hkeys]; simpa using h)
    rw [entries_put_of_notMem hkey] at hnext
    simpa [putAll] using hnext

/-- Pairs with distinct keys make a table of just these pairs. -/
theorem entries_ofList_of_nodup {pairs : List (κ × β)} (h : (pairs.map Prod.fst).Nodup) :
    (ofList pairs).entries = pairs :=
  entries_putAll_of_nodup (t := empty) (by simpa using h)

/-- A table of pairs has no others. -/
theorem mem_of_mem_ofList {pairs : List (κ × β)} {entry : κ × β}
    (h : entry ∈ (ofList pairs).entries) : entry ∈ pairs := by
  rcases mem_or_mem_of_mem_putAll h with h | h
  · cases h
  · exact h

/-- What is laid over a table is found first. -/
theorem get?_overlay (t u : Table κ β) (key : κ) :
    (t.overlay u).get? key = (u.get? key).or (t.get? key) := by
  have hpairs : ∀ (pairs : List (κ × β)) (t : Table κ β), (pairs.map Prod.fst).Nodup →
      (t.putAll pairs).get? key =
        ((pairs.find? (·.1 = key)).map (·.2)).or (t.get? key) := by
    intro pairs
    induction pairs with
    | nil => intro t _; rfl
    | cons pair pairs ih =>
      intro t hnodup
      rw [List.map_cons, List.nodup_cons] at hnodup
      have hrest : (t.putAll (pair :: pairs)).get? key = _ := ih (t.put pair.1 pair.2) hnodup.2
      rw [hrest, get?_put]
      by_cases hkey : pair.1 = key
      · -- No later pair has this key.
        have hnone : pairs.find? (·.1 = key) = none := by
          rw [List.find?_eq_none]
          intro other hother
          have hne : other.1 ≠ key := fun heq =>
            hnodup.1 (List.mem_map.mpr ⟨other, hother, heq.trans hkey.symm⟩)
          simpa using hne
        simp [hnone, hkey]
      · simp [hkey, Ne.symm hkey]
  exact hpairs u.entries t u.distinct

theorem putAll_append (t : Table κ β) (ps qs : List (κ × β)) :
    t.putAll (ps ++ qs) = (t.putAll ps).putAll qs := by
  simp [putAll]

/-! ### Overlays -/

/-- The keys that are new come after the others, in the order of the table that brings them. -/
theorem keys_overlay (t u : Table κ β) :
    (t.overlay u).keys = t.keys ++ u.keys.filter fun key => key ∉ t.keys := by
  -- Induction on the pairs laid over, each of which has a key of its own.
  have hpairs : ∀ (pairs : List (κ × β)) (t : Table κ β), (pairs.map Prod.fst).Nodup →
      (t.putAll pairs).keys = t.keys ++ (pairs.map Prod.fst).filter fun key => key ∉ t.keys := by
    intro pairs
    induction pairs with
    | nil => intro t _; simp [putAll]
    | cons pair pairs ih =>
      intro t hnodup
      rw [List.map_cons, List.nodup_cons] at hnodup
      have hrest : (t.putAll (pair :: pairs)).keys = _ := ih (t.put pair.1 pair.2) hnodup.2
      rw [hrest, keys_put, List.map_cons]
      by_cases hkey : pair.1 ∈ t.keys
      · simp [hkey]
      · -- No later pair has this key, so none of them finds it there.
        have hlater : ∀ key ∈ pairs.map Prod.fst,
            decide (key ∉ t.keys ++ [pair.1]) = decide (key ∉ t.keys) := by
          intro key hmem
          have hne : key ≠ pair.1 := fun heq => hnodup.1 (heq ▸ hmem)
          simp [hne]
        rw [if_neg hkey, List.filter_congr hlater, List.filter_cons_of_pos (by simpa using hkey),
          List.append_assoc, List.singleton_append]
  exact hpairs u.entries t u.distinct

theorem overlay_empty (t : Table κ β) : t.overlay empty = t := rfl

/-- What is stored in the upper table comes to the same as if it were stored after the overlay. -/
theorem overlay_put (t u : Table κ β) (key : κ) (value : β) :
    t.overlay (u.put key value) = (t.overlay u).put key value := by
  apply ext_of_get?
  · rw [keys_overlay, keys_put, keys_put, keys_overlay]
    by_cases hu : key ∈ u.keys
    · have hmem : key ∈ t.keys ++ u.keys.filter fun key => key ∉ t.keys := by
        by_cases ht : key ∈ t.keys <;> simp [ht, hu]
      rw [if_pos hu, if_pos hmem]
    · rw [if_neg hu, List.filter_append]
      by_cases ht : key ∈ t.keys <;> simp [ht, hu]
  · intro other
    rw [get?_overlay, get?_put, get?_put, get?_overlay]
    split <;> rfl

/-- Pairs that are stored in the upper table come to the same as if they were stored after the
    overlay. -/
theorem overlay_putAll (t u : Table κ β) (pairs : List (κ × β)) :
    t.overlay (u.putAll pairs) = (t.overlay u).putAll pairs := by
  induction pairs generalizing u with
  | nil => rfl
  | cons pair pairs ih =>
    have hrest : t.overlay (u.putAll (pair :: pairs)) = _ := ih (u.put pair.1 pair.2)
    rw [hrest, overlay_put]
    rfl

/-- Pairs that are stored one after the other are laid over as the table that they make. -/
theorem overlay_ofList (t : Table κ β) (pairs : List (κ × β)) :
    t.overlay (ofList pairs) = t.putAll pairs := by
  rw [ofList, overlay_putAll, overlay_empty]

/-- **Overlays associate**: of three tables, it does not matter which two come first. -/
theorem overlay_assoc (t u v : Table κ β) :
    (t.overlay u).overlay v = t.overlay (u.overlay v) :=
  (overlay_putAll t u v.entries).symm

end Table

end KconfigQuery
