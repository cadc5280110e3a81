import Mathlib.Data.List.Basic
import KconfigQuery.Proofs.StoredTexts

/-! # Reading a record that was written

A record is written with one line for each setting, and each line is read by itself: it is an entry
with the field that was written, or no entry at all.  No name has a dot and no value is a list or a
group, so what the entries say is what the record says again, as far as its fields are read back.

* `items_render`             the items of a written record
* `ofText_render`            a written record is read, with every field as it is read back
* `readBack_eq_self_iff`     the record is the same exactly if every field is -/

namespace KconfigQuery

open Text (Wide)

/-! ## Tables with other values -/

namespace Table

variable {κ β γ : Type}

/-- The table with each value exchanged for another one.  Where there is none, the key goes. -/
def filterMap (f : β → Option γ) (t : Table κ β) : Table κ γ where
  entries := t.entries.filterMap fun entry => (f entry.2).map fun value => (entry.1, value)
  distinct := by
    refine t.distinct.sublist ?_
    induction t.entries with
    | nil => exact List.Sublist.slnil
    | cons entry entries ih =>
      cases hf : f entry.2 with
      | none => simpa [List.filterMap_cons, hf] using ih.cons entry.1
      | some new => simpa [List.filterMap_cons, hf] using ih

/-- An entry of the exchanged table comes from one with the same key whose value is exchanged for
    its value. -/
theorem mem_filterMap {f : β → Option γ} {t : Table κ β} {key : κ} {new : γ} :
    (key, new) ∈ (t.filterMap f).entries ↔
      ∃ value, (key, value) ∈ t.entries ∧ f value = some new := by
  simp only [filterMap, List.mem_filterMap, Option.map_eq_some_iff, Prod.mk.injEq]
  constructor
  · rintro ⟨⟨_, value⟩, hmem, _, hf, rfl, rfl⟩
    exact ⟨value, hmem, hf⟩
  · rintro ⟨value, hmem, hf⟩
    exact ⟨(key, value), hmem, new, hf, rfl, rfl⟩

/-- What a key has after the exchange is what its value is exchanged for. -/
private theorem get?_filterMap [DecidableEq κ] (f : β → Option γ) (t : Table κ β) (key : κ) :
    (t.filterMap f).get? key = (t.get? key).bind f := by
  refine Option.ext fun new => ?_
  rw [get?_eq_some_iff, mem_filterMap, Option.bind_eq_some_iff]
  simp only [get?_eq_some_iff]

/-- Two exchanges are one. -/
private theorem filterMap_filterMap {δ : Type} (f : β → Option γ) (g : γ → Option δ)
    (t : Table κ β) :
    (t.filterMap f).filterMap g = t.filterMap fun value => (f value).bind g := by
  refine ext ?_
  simp only [filterMap, List.filterMap_filterMap]
  refine List.filterMap_congr fun entry _ => ?_
  cases f entry.2 <;> rfl

private theorem ofList_entries [DecidableEq κ] (t : Table κ β) : ofList t.entries = t :=
  ext (entries_ofList_of_nodup t.distinct)

/-- A table is the same exactly if every value is exchanged for itself. -/
private theorem filterMap_eq_self_iff [DecidableEq κ] {f : β → Option β} {t : Table κ β} :
    t.filterMap f = t ↔ ∀ value ∈ t.values, f value = some value := by
  constructor
  · intro heq value hvalue
    obtain ⟨⟨key, _⟩, hmem, rfl⟩ := List.mem_map.mp hvalue
    -- Both tables are the same, so the value of the key is what it is exchanged for.
    have hget := get?_filterMap f t key
    rw [heq, get?_eq_some_iff.mpr hmem, Option.bind_some] at hget
    exact hget.symm
  · intro hall
    refine ext ?_
    have hsome : ∀ entry ∈ t.entries,
        ((f entry.2).map fun value => (entry.1, value)) = some entry := by
      intro entry hentry
      rw [hall entry.2 (List.mem_map_of_mem hentry), Option.map_some]
    exact (List.filterMap_congr hsome).trans List.filterMap_some

end Table

namespace Settings

open KconfigQuery.Settings.Field (encode decode reread)

/-- A record after it was written and read.  Settings that are not read back are missing. -/
def Raw.readBack (raw : Raw) : Raw :=
  raw.filterMap reread

theorem get?_readBack (raw : Raw) (key : Key) :
    raw.readBack.get? key = (raw.get? key).bind reread :=
  Table.get?_filterMap _ _ _

/-! ## Lines -/

/-- The fields of a written line are an entry for the key, for no key has a name with a special
    meaning. -/
private theorem ofFields?_name (key : Key) (field : List Char) :
    Item.ofFields? key.name.toList (some field) =
      some (.entry (.ofString key.name) false (valueOf (decode field))) := by
  cases key <;> rfl

private theorem toList_renderSetting (key : Key) (w : Wide) :
    (renderSetting key w).toList = key.name.toList ++ '=' :: encode w := by
  simp [renderSetting]

/-- What a written line says: the name of the key, and the field if it has no separator. -/
private theorem ofLine?_renderSetting (key : Key) (w : Wide) :
    Item.ofLine? (renderSetting key w).toList =
      if (encode w).any isSeparator then none
      else some (.entry (.ofString key.name) false (valueOf (decode (encode w)))) := by
  -- A line that starts with the name of a key is neither a comment nor a header.
  have hidle : isIdle (key.name.toList ++ '=' :: encode w) = false := by
    cases key <;> rfl
  have hheader : headerField? (key.name.toList ++ '=' :: encode w) = none := by
    cases key <;> rfl
  have hcut : Text.cut? '=' (key.name.toList ++ '=' :: encode w) =
      some (key.name.toList, encode w) :=
    Text.cut?_append (by cases key <;> decide) _
  -- The first `=` is the one after the name, for no name has one.
  have hfields : entryFields? (key.name.toList ++ '=' :: encode w) =
      if (encode w).any isSeparator then none else some (key.name.toList, some (encode w)) := by
    rw [entryFields?, hcut]
    cases key <;> rfl
  rw [toList_renderSetting, Item.ofLine?, hidle, hheader, hfields]
  by_cases hany : (encode w).any isSeparator
  · simp [hany]
  · simp [hany, ofFields?_name]

/-- What the lines of a record give for its keys. -/
def Raw.fields (raw : Raw) : Table Key Json :=
  raw.filterMap fun w =>
    if (encode w).any isSeparator then none else some (valueOf (decode (encode w)))

/-- The entry that gives a key a value. -/
def entryFor (field : Key × Json) : Item :=
  .entry (.ofString field.1.name) false field.2

/-- **The items of a written record**: one entry for each setting that is read back, in the order of
    the record. -/
theorem items_render {raw : Raw} (h : ∀ w ∈ raw.values, Storable w) :
    items raw.render = raw.fields.entries.map entryFor := by
  -- An encoded text holds neither kind of line end, so each line stays whole.
  have hline : ∀ line ∈ raw.entries.map fun entry => renderSetting entry.1 entry.2,
      '\n' ∉ line.toList ∧ '\r' ∉ line.toList := by
    intro line hline
    obtain ⟨⟨key, w⟩, hmem, rfl⟩ := List.mem_map.mp hline
    have hencode : ∀ c ∈ encode w, c ≠ '\r' ∧ c ≠ '\n' := fun c hc =>
      Field.not_newline_of_mem_encode (h w (List.mem_map_of_mem hmem)).paired hc
    have hname : '\n' ∉ key.name.toList ∧ '\r' ∉ key.name.toList := by
      cases key <;> decide
    rw [toList_renderSetting]
    simp only [List.mem_append, List.mem_cons, not_or]
    refine ⟨⟨hname.1, by decide, fun hc => (hencode _ hc).2 rfl⟩,
      ⟨hname.2, by decide, fun hc => (hencode _ hc).1 rfl⟩⟩
  have hlines : Text.pieces '\n' raw.render.toList =
      (raw.entries.map fun entry => renderSetting entry.1 entry.2).map String.toList ++ [[]] := by
    have hpieces := Text.pieces_join_lines fun line hmem => (hline line hmem).1
    rw [List.map_map] at hpieces
    exact hpieces
  -- No line holds a carriage return, so none falls into further ones.
  have hwhole : ∀ cs ∈
      (raw.entries.map fun entry => renderSetting entry.1 entry.2).map String.toList ++ [[]],
        '\r' ∉ cs := by
    intro cs hcs
    rcases List.mem_append.mp hcs with hcs | hcs
    · obtain ⟨line, hmem, rfl⟩ := List.mem_map.mp hcs
      exact (hline line hmem).2
    · rw [List.mem_singleton.mp hcs]
      exact List.not_mem_nil
  have hlast : Item.ofLine? [] = none := rfl
  rw [items, hlines, Text.flatMap_pieces_of_notMem hwhole, List.filterMap_append,
    List.filterMap_cons_none hlast, List.filterMap_nil, List.append_nil, List.filterMap_map,
    List.filterMap_map, Raw.fields, Table.filterMap, List.map_filterMap]
  refine List.filterMap_congr ?_
  rintro ⟨key, w⟩ -
  simp only [Function.comp_apply, ofLine?_renderSetting]
  by_cases hany : (encode w).any isSeparator
  · simp [hany]
  · simp [hany, entryFor]

/-! ## Taking the entries in -/

/-- Different keys have different names, also as texts that may hold half characters. -/
private theorem wide_name_injective {key other : Key}
    (h : Wide.ofString key.name = .ofString other.name) :
    key = other :=
  Key.name_injective (Wide.ofString_injective h)

/-- No key has the name under which the base of all groups is kept. -/
private theorem wide_name_ne_baseName (key : Key) : Wide.ofString key.name ≠ Slot.baseName := by
  cases key <;> decide

/-- The slot that a field fills. -/
def slotFor (field : Key × Json) : Wide × Slot :=
  (.ofString field.1.name, Slot.ofJson field.2)

/-- Entries outside all groups, each with a name of its own, are put in as they are. -/
private theorem foldlM_take_entries {reading : Reading} (fields : List (Key × Json))
    (ht : reading.target = .file)
    (hd : (reading.slots.keys ++ fields.map fun field => Wide.ofString field.1.name).Nodup) :
    (fields.map entryFor).foldlM Reading.take reading =
      .ok { reading with slots := reading.slots.putAll (fields.map slotFor) } := by
  -- Each name is fresh when its entry comes, so its value is not added to anything.
  induction fields generalizing reading with
  | nil => rfl
  | cons field fields ih =>
    have hname : Wide.ofString field.1.name ∉ reading.slots.keys := by
      rw [List.nodup_append] at hd
      exact fun hmem => hd.2.2 _ hmem _ List.mem_cons_self rfl
    let next : Reading :=
      { reading with
        slots := reading.slots.put (.ofString field.1.name) (Slot.ofJson field.2) }
    have htake : reading.take (entryFor field) = .ok next := by
      have hfresh : reading.slots.get? (.ofString field.1.name) = none :=
        Table.get?_eq_none_iff.mpr hname
      simp only [Reading.take, entryFor, ht, if_neg (wide_name_ne_baseName _), hfresh,
        Slot.renewed, next]
    have hkeys : next.slots.keys = reading.slots.keys ++ [Wide.ofString field.1.name] :=
      (Table.keys_put _ _ _).trans (if_neg hname)
    have hrest := @ih next ht (by rw [hkeys]; simpa using hd)
    rw [List.map_cons, List.foldlM_cons, htake]
    exact hrest

/-- What the names of a file stand for when it gives these fields. -/
def slotsFor (commonItems : List Slot) (fields : Table Key Json) : Table Wide Slot :=
  (Reading.start commonItems).slots.putAll (fields.entries.map slotFor)

/-- The names that a record's lines fill are all different, and none is there at the start. -/
private theorem nodup_names (commonItems : List Slot) (fields : Table Key Json) :
    ((Reading.start commonItems).slots.keys ++
      fields.entries.map fun field => Wide.ofString field.1.name).Nodup := by
  have hkeys : (Reading.start commonItems).slots.keys = [Slot.baseName] := rfl
  have hnames : (fields.entries.map fun field => Wide.ofString field.1.name) =
      fields.keys.map fun key => Wide.ofString key.name := by
    rw [Table.keys, List.map_map]
    rfl
  rw [hkeys, hnames, List.singleton_append, List.nodup_cons]
  -- The name of a base is no key, and keys have names of their own.
  constructor
  · intro hmem
    obtain ⟨key, -, hkey⟩ := List.mem_map.mp hmem
    exact wide_name_ne_baseName key hkey
  · refine List.pairwise_map.mpr (fields.nodup_keys.imp ?_)
    exact fun hne heq => hne (wide_name_injective heq)

/-- The slots of a written record: the list that all lists have in common, then one slot for each
    field. -/
private theorem entries_slotsFor (commonItems : List Slot) (fields : Table Key Json) :
    (slotsFor commonItems fields).entries =
      (Slot.baseName, Slot.commonList commonItems) :: fields.entries.map slotFor := by
  have hnodup := nodup_names commonItems fields
  rw [slotsFor, Table.entries_putAll_of_nodup]
  · rfl
  · rw [List.map_map]
    exact hnodup

/-! ## Nothing goes inside anything -/

/-- A name without dots leads nowhere, and what is no group stays where it is in any case. -/
private theorem nest_of_plain {names : Names} {name : Wide} (ho : outerNames name = [])
    (hi : innerName name = lastPart name)
    (hg : ∀ base held, names.get? name ≠ some (.group base held)) :
    names.nest name = .ok names := by
  unfold Names.nest
  split
  · next hgroup => exact absurd hgroup (hg _ _)
  · rw [Names.nestSlot, ho]
    simp [hi]
  · rfl

/-- A text is never taken for a group, whatever word or number it looks like. -/
private theorem ofJson_valueOf_ne_group (text : Wide) (base : Slot) (held : List (Wide × Slot)) :
    Slot.ofJson (valueOf (.string text)) ≠ .group base held := by
  -- The words for truth values and nothing, and texts of other kinds.
  simp only [valueOf]
  split
  · simp [Slot.ofJson]
  · simp [Slot.ofJson]
  · simp [Slot.ofJson]
  · simp [Slot.ofJson]

/-- A state that no item changes is the state at the end. -/
private theorem foldlM_of_fixed {α β ε : Type} {f : β → α → Except ε β} {state : β} {items : List α}
    (h : ∀ item ∈ items, f state item = .ok state) : items.foldlM f state = .ok state := by
  induction items with
  | nil => rfl
  | cons item items ih =>
    rw [List.foldlM_cons, h item List.mem_cons_self]
    exact ih fun other hother => h other (List.mem_cons_of_mem _ hother)

/-- Nothing of a written record is put inside anything else. -/
private theorem nest_slotsFor (commonItems : List Slot) {raw : Raw}
    (h : ∀ w ∈ raw.values, Storable w)
    {name : Wide} (hname : name ∈ (slotsFor commonItems raw.fields).keys) :
    (Names.ofSlots (slotsFor commonItems raw.fields)).nest name =
      .ok (.ofSlots (slotsFor commonItems raw.fields)) := by
  obtain ⟨⟨name, slot⟩, hmem, rfl⟩ := List.mem_map.mp hname
  have hget : (Names.ofSlots (slotsFor commonItems raw.fields)).get? name = some slot :=
    Table.get?_eq_some_iff.mpr hmem
  rw [entries_slotsFor] at hmem
  rcases List.mem_cons.mp hmem with heq | hfield
  · -- The list that all lists have in common is no group.
    cases heq
    have hplain : outerNames Slot.baseName = [] ∧
        innerName Slot.baseName = lastPart Slot.baseName := by decide
    refine nest_of_plain hplain.1 hplain.2 ?_
    intro base held hgroup
    have hlist := Slot.isList_listOf .root commonItems
    rw [hget] at hgroup
    rw [← Slot.commonList, Option.some.inj hgroup] at hlist
    cases hlist
  · obtain ⟨⟨key, value⟩, hvalue, heq⟩ := List.mem_map.mp hfield
    cases heq
    have hplain : outerNames (.ofString key.name) = [] ∧
        innerName (.ofString key.name) = lastPart (.ofString key.name) := by
      cases key <;> decide
    refine nest_of_plain hplain.1 hplain.2 ?_
    -- A written field is read as a text, and a text gives no group.
    intro base held hgroup
    obtain ⟨w, hw, hread⟩ := Table.mem_filterMap.mp hvalue
    split at hread
    · cases hread
    · cases hread
      obtain ⟨text, htext, -⟩ :=
        Field.exists_decode_encode (h w (List.mem_map_of_mem hw)).paired
      rw [hget, htext] at hgroup
      exact ofJson_valueOf_ne_group text base held (Option.some.inj hgroup)

/-! ## The settings again -/

/-- The slot of a field is the setting for its key, if it is one at all. -/
private theorem setting?_slotFor (field : Key × Json) :
    setting? (slotFor field).1 (slotFor field).2 =
      (Slot.ofJson field.2).setting?.map fun text => (field.1, text) := by
  -- The name leads back to its key.
  have hkey : (Wide.ofString field.1.name).string?.bind Key.ofName? = some field.1 := by
    rw [Wide.string?_eq_some_iff.mpr rfl, Option.bind_some, Key.ofName?_eq_some_iff]
  rw [setting?, slotFor, hkey]
  cases (Slot.ofJson field.2).setting? <;> rfl

/-- The settings that the slots of a record give are those of its fields. -/
private theorem ofSlots_slotsFor (commonItems : List Slot) (fields : Table Key Json) :
    Raw.ofSlots (slotsFor commonItems fields) =
      fields.filterMap fun value => (Slot.ofJson value).setting? := by
  -- The list that all lists have in common is no setting.
  have hbase : setting? Slot.baseName (Slot.commonList commonItems) = none := by
    rw [setting?, Slot.commonList, Slot.setting?_listOf]
    split <;> simp_all
  have hentries : (slotsFor commonItems fields).entries.filterMap
      (fun entry => setting? entry.1 entry.2) =
        (fields.filterMap fun value => (Slot.ofJson value).setting?).entries := by
    rw [entries_slotsFor, List.filterMap_cons]
    simp only [hbase]
    rw [List.filterMap_map]
    refine List.filterMap_congr fun field _ => ?_
    rw [Function.comp_apply]
    show setting? (slotFor field).1 (slotFor field).2 = _
    exact setting?_slotFor field
  exact (congrArg Table.ofList hentries).trans (Table.ofList_entries _)

/-- A written record is read, whatever all lists have in common, and each of its settings is what
    its field is read back as. -/
theorem ofText_render (commonItems : List Slot) {raw : Raw} (h : ∀ w ∈ raw.values, Storable w) :
    Raw.ofText commonItems raw.render = .ok raw.readBack := by
  -- First the items are taken in, which fills one slot for each field.
  have hread : Reading.ofItems commonItems (items raw.render) =
      .ok ⟨slotsFor commonItems raw.fields, .file⟩ := by
    rw [items_render h]
    exact foldlM_take_entries raw.fields.entries rfl (nodup_names commonItems raw.fields)
  -- Then names are put where their dots lead, and there are no dots.
  have hnest : Reading.nested ⟨slotsFor commonItems raw.fields, .file⟩ =
      .ok (slotsFor commonItems raw.fields) := by
    rw [Reading.nested, foldlM_of_fixed fun _ hname => nest_slotsFor commonItems h hname]
    rfl
  -- What the slots say is each text as it is read back.
  have hback : Raw.ofSlots (slotsFor commonItems raw.fields) = raw.readBack := by
    rw [ofSlots_slotsFor, Raw.fields, Table.filterMap_filterMap, Raw.readBack]
    congr 1
    funext w
    by_cases hany : (encode w).any isSeparator
    · simp [reread, hany]
    · simp [reread, hany]
  simp only [Raw.ofText, hread, hnest, hback, bind, Except.bind, pure, Except.pure]

/-- A file without text gives no settings, for it is the text of a record without settings. -/
theorem ofText_empty (commonItems : List Slot) : Raw.ofText commonItems "" = .ok .empty := by
  have hrender : Raw.render .empty = "" := rfl
  have hback : Raw.readBack .empty = .empty := rfl
  have hread := @ofText_render commonItems .empty fun w hw => absurd hw List.not_mem_nil
  rwa [hrender, hback] at hread

/-- A record is read as it was written exactly if all its texts are faithful. -/
theorem readBack_eq_self_iff {raw : Raw} (h : ∀ w ∈ raw.values, Storable w) :
    raw.readBack = raw ↔ ∀ w ∈ raw.values, Field.Faithful w := by
  rw [Raw.readBack, Table.filterMap_eq_self_iff]
  constructor
  · intro hall w hw
    exact (Field.reread_eq_some_iff (h w hw).paired (h w hw).ne_null).mp (hall w hw)
  · intro hall w hw
    exact (Field.reread_eq_some_iff (h w hw).paired (h w hw).ne_null).mpr (hall w hw)

end Settings

end KconfigQuery
