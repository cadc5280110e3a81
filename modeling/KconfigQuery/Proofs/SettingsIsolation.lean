import KconfigQuery.Proofs.SettingsValidity

/-! # Settings do not meddle with each other

A record is written with one line for each of its keys.  Whatever the texts are, no field leaves its
line, and each line is read by itself as an entry of its own key or as nothing at all.  So what is
read for a key depends on what was written for this key alone.

* `render_eq_join`         the lines of a written record
* `exists_key_of_mem_items`   what is read of them are entries for its keys
* `written_isolated`       what is read for a key, whatever else was written -/

namespace KconfigQuery.Settings

open Text (Wide)
open KconfigQuery.Settings.Field (encode)

/-! ## The lines of a record -/

/-- What is written for a key. -/
def Raw.field (raw : Raw) (key : Key) : String :=
  String.ofList (encode ((raw.get? key).getD []))

/-- **A written record** is one line for each of its keys. -/
theorem render_eq_join (raw : Raw) :
    raw.render =
      String.join (raw.keys.map fun key => key.name ++ "=" ++ raw.field key ++ "\n") := by
  rw [Raw.render, Table.keys, List.map_map]
  congr 1
  refine List.map_congr_left fun entry hentry => ?_
  -- Keys are distinct, so what is looked up for a key is what its entry holds.
  have hget : raw.get? entry.1 = some entry.2 := Table.get?_eq_some_iff.mpr hentry
  rw [Function.comp_apply, Raw.field, hget]
  rfl

/-- No field leaves its line. -/
private theorem not_newline_of_field {raw : Raw} (h : ∀ w ∈ raw.values, Storable w) (key : Key) :
    '\n' ∉ (raw.field key).toList ∧ '\r' ∉ (raw.field key).toList := by
  rw [Raw.field, String.toList_ofList]
  cases hget : raw.get? key with
  | none => exact ⟨List.not_mem_nil, List.not_mem_nil⟩
  | some w =>
    -- Line ends are escaped when a text is encoded.
    have hencode : ∀ c ∈ encode w, c ≠ '\r' ∧ c ≠ '\n' := fun c hc =>
      Field.not_newline_of_mem_encode (h w (Table.mem_values_of_get? hget)).paired hc
    exact ⟨fun hc => (hencode _ hc).2 rfl, fun hc => (hencode _ hc).1 rfl⟩

/-- Nothing but entries for the keys of a record is read of its lines. -/
theorem exists_key_of_mem_items {raw : Raw} (h : ∀ w ∈ raw.values, Storable w) {item : Item}
    (hitem : item ∈ items raw.render) :
    ∃ key ∈ raw.keys, ∃ value, item = .entry (.ofString key.name) false value := by
  rw [items_render h] at hitem
  obtain ⟨⟨key, value⟩, hfield, rfl⟩ := List.mem_map.mp hitem
  obtain ⟨w, hw, -⟩ := Table.mem_filterMap.mp hfield
  exact ⟨key, List.mem_map_of_mem hw, value, rfl⟩

/-- Only settings that were written are read back. -/
private theorem mem_keys_of_readBack {raw : Raw} {key : Key} (h : key ∈ raw.readBack.keys) :
    key ∈ raw.keys := by
  obtain ⟨⟨key, text⟩, hentry, rfl⟩ := List.mem_map.mp h
  obtain ⟨w, hw, -⟩ := Table.mem_filterMap.mp hentry
  exact List.mem_map.mpr ⟨(key, w), hw, rfl⟩

/-! ## Written records -/

/-- The record that a change writes when it gives these pairs and all of them are accepted. -/
def Writes (tree : FileTree) (env : Environment) (pairs : List (String × String)) (raw : Raw) :
    Prop :=
  ∃ old, stored tree env = .ok old ∧ old.set pairs = .ok raw

variable {tree : FileTree} {env : Environment} {pairs : List (String × String)} {raw : Raw}

/-- All texts of a written record can be stored, those that were there and those that were given. -/
private theorem Writes.storable (h : Writes tree env pairs raw) : ∀ w ∈ raw.values, Storable w := by
  obtain ⟨old, hold, hset⟩ := h
  exact storable_of_set (storable_of_stored hold) hset

/-- A change writes one record. -/
theorem Writes.unique {other : Raw} (h : Writes tree env pairs raw)
    (ho : Writes tree env pairs other) : raw = other := by
  obtain ⟨old, hold, hset⟩ := h
  obtain ⟨old', hold', hset'⟩ := ho
  obtain rfl : old = old' := Except.ok.inj (hold.symm.trans hold')
  exact Except.ok.inj (hset.symm.trans hset')

/-- The file has the text of the record after the change, if it was kept. -/
theorem Writes.contents {after : FileTree} {path : String} (h : Writes tree env pairs raw)
    (hpath : env.settingsFile = .ok path) (hchange : change tree env pairs = ⟨after, none⟩)
    (hsink : ¬after.LeadsToSink env.workingDir path) :
    after.contents env.workingDir path = .ok raw.render := by
  obtain ⟨old, other, hold, hset, -, hcontents⟩ := contents_of_change hpath hchange hsink
  rwa [h.unique ⟨old, hold, hset⟩]

/-- What a change writes is one line for each key, and no text leaves its line.  Reading it gives
    nothing but these keys, and truth values as they were written.  Where two records that are
    written have the same for a key, or both nothing, the same is read for it, whatever they have
    for the other key, in which order the keys are, and whatever all lists have in common. -/
theorem written_isolated (h : Writes tree env pairs raw) :
    (∀ (path : String) (after : FileTree), env.settingsFile = .ok path →
        change tree env pairs = ⟨after, none⟩ → ¬after.LeadsToSink env.workingDir path →
        after.contents env.workingDir path = .ok raw.render) ∧
      (∃ field : Key → String,
        raw.render = String.join (raw.keys.map fun key => key.name ++ "=" ++ field key ++ "\n") ∧
        ∀ key, '\n' ∉ (field key).toList ∧ '\r' ∉ (field key).toList) ∧
      (∀ item ∈ items raw.render,
        ∃ key ∈ raw.keys, ∃ value, item = .entry (.ofString key.name) false value) ∧
      ∀ commonItems, ∃ back, Raw.ofText commonItems raw.render = .ok back ∧
        (∀ key ∈ back.keys, key ∈ raw.keys) ∧
        (∀ text, text = "" ∨ text = "true" ∨ text = "false" →
          raw.get? .verbose = some (.ofString text) →
          back.get? .verbose = some (.ofString text)) ∧
        ∀ (otherTree : FileTree) (otherEnv : Environment) (otherPairs : List (String × String))
          (other otherBack : Raw) (otherItems : List Slot),
          Writes otherTree otherEnv otherPairs other →
          Raw.ofText otherItems other.render = .ok otherBack →
          ∀ key, raw.get? key = other.get? key → back.get? key = otherBack.get? key := by
  have hstorable := h.storable
  refine ⟨fun _ _ => h.contents, ⟨raw.field, render_eq_join raw, not_newline_of_field hstorable⟩,
    fun item hitem => exists_key_of_mem_items hstorable hitem, fun commonItems => ?_⟩
  refine ⟨raw.readBack, ofText_render commonItems hstorable, fun key => mem_keys_of_readBack,
    ?_, ?_⟩
  · intro text htext hget
    rw [get?_readBack, hget, Option.bind_some, Field.reread_of_truth (by simpa using htext),
      Wide.text_ofString]
  · -- Both readings are the written texts as they are read back, key by key.
    intro otherTree otherEnv otherPairs other otherBack otherItems hother hback key hkey
    rw [ofText_render otherItems hother.storable, Except.ok.injEq] at hback
    rw [← hback, get?_readBack, get?_readBack, hkey]

/-- A path that looks like two lines sets no verbosity. -/
theorem written_isolated_lines :
    ∃ raw back, Writes (FileTree.empty.put ["s"] (.file "")) rootEnvironment
        [("kdir", "/a\nverbose=true"), ("verbose", "false")] raw ∧
      Raw.ofText [] raw.render = .ok back ∧
      back.get? .verbose = some (.ofString "false") := by
  have hnode : (FileTree.empty.put ["s"] (.file "")).node? ["s"] = some (.file "") := rfl
  have hset : Raw.set .empty [("kdir", "/a\nverbose=true"), ("verbose", "false")] = .ok
      ((Table.empty.put .kdir (.ofString "/a\nverbose=true")).put .verbose
        (.ofString "false")) := rfl
  have hwrites : Writes (FileTree.empty.put ["s"] (.file "")) rootEnvironment _ _ :=
    ⟨.empty, (change_rootFile hnode (ofText_empty []) hset).1, hset⟩
  obtain ⟨-, -, -, hread⟩ := written_isolated hwrites
  obtain ⟨back, hback, -, htruth, -⟩ := hread []
  exact ⟨_, back, hwrites, hback, htruth "false" (by simp) rfl⟩

end KconfigQuery.Settings
