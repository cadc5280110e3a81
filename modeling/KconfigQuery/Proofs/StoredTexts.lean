import KconfigQuery.Proofs.FieldRoundTrip
import KconfigQuery.Settings.Document

/-! # What a file can give for a setting

A setting that is read from a file is a text that can be written as a JSON string, and it is not the
word for no value.  This is so of every text that stands for a name of a file, whatever lists and
groups the file makes and wherever they are put: only an entry outside all groups gives a name a
text, and no change inside a list or a group makes a text of it.

* `setting?_of_hold`       what is put inside a slot changes nothing about its setting
* `SoundTable.take`        one more item of a file keeps all texts storable
* `SoundTable.nest`        so does a group that goes inside another one
* `storable_of_ofText`     the settings of a file are storable -/

namespace KconfigQuery

/-! ## Attempts that succeed -/

section

variable {ε ε' α β : Type} {attempt : Except ε α}

/-- An attempt after another one succeeds exactly if both do, one after the other. -/
theorem bind_eq_ok_iff {f : α → Except ε β} {b : β} :
    attempt >>= f = .ok b ↔ ∃ a, attempt = .ok a ∧ f a = .ok b := by
  cases attempt <;> simp [bind, Except.bind]

/-- An attempt succeeds exactly if it does without the function on its result. -/
theorem map_eq_ok_iff {f : α → β} {b : β} :
    attempt.map f = .ok b ↔ ∃ a, attempt = .ok a ∧ f a = b := by
  cases attempt <;> simp [Except.map]

/-- Another error makes no difference to a success. -/
theorem mapError_eq_ok_iff {f : ε → ε'} {a : α} : attempt.mapError f = .ok a ↔ attempt = .ok a := by
  cases attempt with
  | ok other =>
    show Except.ok other = Except.ok a ↔ _
    rw [Except.ok.injEq, Except.ok.injEq]
  | error cause => exact iff_of_false nofun nofun

/-- What every step keeps, a run of steps keeps. -/
theorem of_foldlM_eq_ok {f : β → α → Except ε β} {P : β → Prop} {items : List α} {state after : β}
    (h : P state)
    (hstep : ∀ item ∈ items, ∀ state next, P state → f state item = .ok next → P next)
    (hfold : items.foldlM f state = .ok after) : P after := by
  -- Induction on the items, with the state as it is before each of them.
  induction items generalizing state with
  | nil =>
    cases hfold
    exact h
  | cons item items ih =>
    rw [List.foldlM_cons] at hfold
    obtain ⟨next, hnext, hrest⟩ := bind_eq_ok_iff.mp hfold
    have hkept := hstep item List.mem_cons_self state next h hnext
    exact ih hkept (fun other hother => hstep other (List.mem_cons_of_mem _ hother)) hrest

end

namespace Settings

open Text (Wide)

/-- The text can be a setting in a file. -/
structure Storable (w : Wide) : Prop where
  paired : Json.Paired w
  ne_null : w ≠ .ofString "null"

/-- Every whole text but the word for no value can be a setting in a file. -/
theorem storable_ofString {s : String} (h : s ≠ "null") : Storable (.ofString s) := by
  refine ⟨Json.paired_ofChars _, fun heq => h ?_⟩
  exact Wide.ofString_injective heq

/-- If the slot is a setting, its text is storable. -/
def Slot.Sound (slot : Slot) : Prop :=
  ∀ w, slot.setting? = some w → Storable w

/-- All slots that are kept by names are sound. -/
def SoundTable (slots : Table Wide Slot) : Prop :=
  ∀ name slot, slots.get? name = some slot → slot.Sound

/-- A sound slot can be put under any name. -/
theorem SoundTable.put {slots : Table Wide Slot} {slot : Slot} (h : SoundTable slots)
    (hs : slot.Sound) (name : Wide) : SoundTable (slots.put name slot) := by
  intro other found hfound
  rw [Table.get?_put] at hfound
  split at hfound
  · cases hfound
    exact hs
  · exact h other found hfound

namespace Slot

/-- A slot that is no setting is sound. -/
theorem sound_of_setting? {slot : Slot} (h : slot.setting? = none) : slot.Sound := by
  intro w hw
  rw [h] at hw
  cases hw

/-- Soundness is about the setting of a slot and nothing else. -/
private theorem Sound.of_setting? {slot other : Slot} (h : slot.Sound)
    (heq : other.setting? = slot.setting?) : other.Sound := by
  intro w hw
  exact h w (heq ▸ hw)

/-- Truth values are sound settings. -/
private theorem sound_flag (value : Bool) : (flag value).Sound := by
  intro w hw
  cases hw
  cases value
  · exact storable_ofString (by decide)
  · exact storable_ofString (by decide)

/-! ## Changes inside a slot -/

@[simp] theorem setting?_put (holder : Slot) (name : Wide) (slot : Slot) :
    (holder.put name slot).setting? = holder.setting? := by
  cases holder <;> rfl

@[simp] theorem setting?_push (holder slot : Slot) :
    (holder.push slot).setting? = holder.setting? := by
  cases holder <;> rfl

@[simp] theorem setting?_withBase (holder base : Slot) :
    (holder.withBase base).setting? = holder.setting? := by
  cases holder <;> rfl

@[simp] private theorem setting?_rebase (holder base : Slot) :
    (holder.rebase base).setting? = holder.setting? := by
  unfold rebase
  split
  · exact setting?_withBase holder base
  · rfl

@[simp] theorem setting?_resize (length : Nat) (holder : Slot) :
    (holder.resize length).setting? = holder.setting? := by
  cases holder <;> rfl

/-- What is put inside a slot changes nothing about its setting. -/
theorem setting?_of_hold {holder held slot : Slot} {slots : Table Wide Slot} {name : Wide}
    (h : holder.hold slots name slot = .ok held) : held.setting? = holder.setting? := by
  -- The length of a list, its base, and any other name.
  unfold hold at h
  split at h
  · obtain ⟨length, -, rfl⟩ := map_eq_ok_iff.mp h
    exact setting?_resize length holder
  split at h
  · cases h
    exact setting?_rebase holder slot
  · cases h
    exact setting?_put holder name slot

/-- A list that is made of items is a list. -/
theorem isList_listOf (base : Slot) (items : List Slot) : (listOf base items).isList := by
  have hfold : ∀ holder : Slot, holder.isList → (items.foldl push holder).isList := by
    induction items with
    | nil => exact fun _ h => h
    | cons item items ih =>
      intro holder h
      refine ih _ ?_
      cases holder <;> first | rfl | cases h
  exact hfold _ rfl

@[simp] theorem setting?_listOf (base : Slot) (items : List Slot) :
    (listOf base items).setting? = none := by
  have hlist := isList_listOf base items
  cases h : listOf base items with
  | list => rfl
  | _ => rw [h] at hlist; cases hlist

/-! ## One more item for a list -/

variable {slots after : Table Wide Slot} {name : Wide} {item holder held : Slot}

/-- An item that goes to a list by its holder changes no setting. -/
private theorem setting?_of_push? (h : SoundTable slots)
    (hpush : push? slots item holder = some (after, held)) :
    SoundTable after ∧ held.setting? = holder.setting? := by
  -- The list is in the holder, or a name keeps it.
  unfold push? at hpush
  split at hpush
  · cases hpush
    exact ⟨h, setting?_push _ item⟩
  · next kept =>
    split at hpush
    · cases hpush
      exact ⟨h.put (sound_of_setting? (setting?_push _ item)) kept, rfl⟩
    · cases hpush
  · cases hpush

/-- Neither does one that goes to a list inside the holder or to one in its base. -/
private theorem setting?_of_pushBy? {inBase? : Option (Table Wide Slot × Slot)}
    (h : SoundTable slots)
    (hbase : ∀ pair, inBase? = some pair → SoundTable pair.1)
    (hpush : pushBy? slots name item holder inBase? = some (after, held)) :
    SoundTable after ∧ held.setting? = holder.setting? := by
  -- What has the name is in the holder itself, or it is in its base.
  unfold pushBy? at hpush
  split at hpush
  · obtain ⟨⟨after', inner⟩, hinner, heq⟩ := Option.map_eq_some_iff.mp hpush
    cases heq
    exact ⟨(setting?_of_push? h hinner).1, setting?_put holder name inner⟩
  · obtain ⟨⟨after', base⟩, hinner, heq⟩ := Option.map_eq_some_iff.mp hpush
    cases heq
    exact ⟨hbase _ hinner, setting?_withBase holder base⟩

/-- Neither does one that goes to the list that is found first, wherever it is kept. -/
private theorem setting?_of_extend? (h : SoundTable slots)
    (hextend : extend? slots name item holder = some (after, held)) :
    SoundTable after ∧ held.setting? = holder.setting? := by
  -- A list and a group look in themselves first and then in their base; what is kept by a name is
  -- exchanged where it is kept.
  fun_induction extend? slots name item holder generalizing after held with
  | case1 base length inside ih =>
    exact setting?_of_pushBy? h (fun pair hpair => (ih hpair).1) hextend
  | case2 base inside ih =>
    exact setting?_of_pushBy? h (fun pair hpair => (ih hpair).1) hextend
  | case3 kept inner hkept =>
    obtain ⟨⟨after', inner'⟩, hinner, heq⟩ := Option.map_eq_some_iff.mp hextend
    cases heq
    -- The list is kept by a name, whose slot is exchanged for one with the same setting.
    obtain ⟨hafter, hsetting⟩ := setting?_of_pushBy? h (fun pair hpair => by cases hpair) hinner
    exact ⟨hafter.put ((h kept inner hkept).of_setting? hsetting) kept, rfl⟩
  | case4 => cases hextend
  | case5 => cases hextend

/-- Neither does one that goes to the base itself. -/
private theorem setting?_of_extendBase? (h : SoundTable slots)
    (hextend : extendBase? slots name item holder = some (after, held)) :
    SoundTable after ∧ held.setting? = holder.setting? := by
  unfold extendBase? at hextend
  split at hextend
  · obtain ⟨⟨after', base⟩, hbase, heq⟩ := Option.map_eq_some_iff.mp hextend
    cases heq
    exact ⟨(setting?_of_push? h hbase).1, setting?_withBase holder base⟩
  · cases hextend

/-- An entry inside a holder gives no setting to a name, and takes none away. -/
private theorem setting?_of_assign {listed : Bool} {value : Json} (h : SoundTable slots)
    (hassign : assign slots holder name listed value = .ok (after, held)) :
    SoundTable after ∧ held.setting? = holder.setting? := by
  -- An entry that is put in by its name, whatever it is made of.
  have hold : ∀ slot : Slot,
      ((holder.hold slots name slot).map fun holder => (slots, holder)) = .ok (after, held) →
        SoundTable after ∧ held.setting? = holder.setting? := by
    intro slot hmap
    obtain ⟨held', hheld, heq⟩ := map_eq_ok_iff.mp hmap
    cases heq
    exact ⟨h, setting?_of_hold hheld⟩
  unfold assign at hassign
  split at hassign
  · exact hold _ hassign
  split at hassign
  · exact hold _ hassign
  -- The list that grows is found in the holder, or it is the base, or the entry is put in anew.
  cases hextend : extend? slots name (ofJson value) holder with
  | some pair =>
    rw [hextend] at hassign
    cases hassign
    exact setting?_of_extend? h hextend
  | none =>
    cases hbase : extendBase? slots name (ofJson value) holder with
    | some pair =>
      rw [hextend, hbase] at hassign
      cases hassign
      exact setting?_of_extendBase? h hbase
    | none =>
      rw [hextend, hbase] at hassign
      exact hold _ hassign

/-! ## Values -/

/-- What is read from a field is storable, and the word for no value is no text. -/
private theorem sound_valueOf_decode (field : List Char) :
    (ofJson (valueOf (Field.decode field))).Sound := by
  cases hdecode : Field.decode field with
  | string text =>
    intro w hw
    rw [Field.setting?_ofJson_valueOf] at hw
    split at hw
    · cases hw
    · next hnull =>
      cases hw
      exact ⟨Field.paired_of_decode hdecode, hnull⟩
  | bool value => exact sound_flag value
  | null => exact sound_of_setting? rfl
  | number value => exact sound_of_setting? rfl
  | array items => exact sound_of_setting? (setting?_listOf _ _)
  | object fields => exact sound_of_setting? rfl

/-- An entry gives its name a sound slot, whatever was there. -/
theorem Sound.renewed {current? : Option Slot} {value : Json} (h : (ofJson value).Sound)
    (listed : Bool) : (renewed current? listed value).Sound := by
  unfold Slot.renewed
  split
  · exact sound_of_setting? (setting?_push _ _)
  · exact sound_of_setting? (setting?_listOf _ _)
  · exact sound_of_setting? (setting?_listOf _ _)
  · exact h

end Slot

/-! ## One item after the other -/

/-- The value of an entry gives a storable setting, if it gives one. -/
def Item.Sound : Item → Prop
  | .entry _ _ value => (Slot.ofJson value).Sound
  | _ => True

/-- The value of an entry is sound, also where nothing is given and it counts as true. -/
private theorem sound_entryValue (value? : Option (List Char)) :
    (Slot.ofJson (entryValue value?)).Sound := by
  cases value? with
  | some field => exact Slot.sound_valueOf_decode field
  | none => exact Slot.sound_flag true

/-- Whatever becomes of the key, the value is what its field is read as. -/
private theorem sound_of_ofFields? {key : List Char} {value? : Option (List Char)} {item : Item}
    (h : Item.ofFields? key value? = some item) : item.Sound := by
  simp only [Item.ofFields?] at h
  split at h
  · obtain ⟨-, heq⟩ := Option.ite_none_left_eq_some.mp h
    cases heq
    exact sound_entryValue value?
  · -- A key that is JSON of another kind makes an entry, too, or it is a defect.
    split at h
    · cases h
      trivial
    · cases h
      exact sound_entryValue value?

/-- A header has no value. -/
private theorem sound_ofName (name : List Char) : (Item.ofName name).Sound := by
  rw [Item.ofName]
  split <;> trivial

/-- All items of a file have sound values. -/
private theorem sound_of_mem_items {text : String} {item : Item} (h : item ∈ items text) :
    item.Sound := by
  obtain ⟨line, -, hline⟩ := List.mem_filterMap.mp h
  unfold Item.ofLine? at hline
  split at hline
  · cases hline
  split at hline
  · cases hline
    exact sound_ofName _
  · obtain ⟨⟨key, value?⟩, -, hfields⟩ := Option.bind_eq_some_iff.mp hline
    exact sound_of_ofFields? hfields

/-- A header leaves a sound slot at its name. -/
private theorem sound_headed {current? : Option Slot}
    (h : ∀ slot, current? = some slot → slot.Sound) :
    (headed current?).Sound := by
  unfold headed
  split
  · next slot =>
    split
    · exact Slot.sound_of_setting? rfl
    · exact h slot rfl
  · exact Slot.sound_of_setting? rfl

/-- One more item keeps all texts storable. -/
theorem SoundTable.take {reading after : Reading} {item : Item} (h : SoundTable reading.slots)
    (hitem : item.Sound) (htake : reading.take item = .ok after) : SoundTable after.slots := by
  unfold Reading.take at htake
  split at htake
  · cases htake
  · next name =>
    -- A header keeps what is there or makes an empty group.
    split at htake
    · cases htake
      exact h
    · cases htake
      exact h.put (sound_headed (h name)) name
  · next name listed value =>
    split at htake
    · cases htake
      exact h
    · split at htake
      · cases htake
        exact h
      · cases htake
        exact h.put (Slot.Sound.renewed hitem listed) name
    · next outer _ =>
      -- An entry inside a group or a list changes that one only.
      split at htake
      · next holder hholder =>
        obtain ⟨⟨slots, held⟩, hassign, heq⟩ := map_eq_ok_iff.mp htake
        cases heq
        obtain ⟨hslots, hsetting⟩ := Slot.setting?_of_assign h hassign
        exact hslots.put ((h outer holder hholder).of_setting? hsetting) outer
      · cases htake
        exact h

/-- At the start there is only the base of all lists, which is no setting. -/
private theorem soundTable_start (commonItems : List Slot) :
    SoundTable (Reading.start commonItems).slots := by
  have hempty : SoundTable (.empty : Table Wide Slot) := by
    intro name slot hslot
    cases hslot
  exact hempty.put (Slot.sound_of_setting? (Slot.setting?_listOf _ _)) Slot.baseName

/-! ## Groups inside others -/

/-- What a group goes inside is no setting. -/
private theorem setting?_holderOf (current? : Option Slot) :
    (Names.holderOf current?).setting? = none := by
  unfold Names.holderOf
  split
  · rfl
  · next slot _ =>
    split
    · next hholder => cases slot <;> first | rfl | cases hholder
    · rfl
  · rfl

/-- A slot that goes inside a holder gives no setting to a name. -/
private theorem setting?_of_place {name : Wide} {slot holder held : Slot} {path : List Wide}
    {slots after : Table Wide Slot} (h : SoundTable slots)
    (hplace : Names.place name slot path slots holder = .ok (after, held)) :
    SoundTable after ∧ held.setting? = holder.setting? := by
  -- Along the path: it ends in the holder, or goes on in a slot that a name or the holder keeps.
  fun_induction Names.place name slot path slots holder generalizing after held with
  | case1 => cases hplace
  | case2 => cases hplace
  | case3 slots holder =>
    obtain ⟨held', hheld, heq⟩ := map_eq_ok_iff.mp hplace
    cases heq
    exact ⟨h, Slot.setting?_of_hold hheld⟩
  | case4 slots holder step path _ root hstep ih =>
    -- The path goes on in what is kept by a name, so it is there that something changes.
    obtain ⟨⟨after', inner⟩, hinner, heq⟩ := map_eq_ok_iff.mp hplace
    cases heq
    obtain ⟨hafter, hsetting⟩ := ih h hinner
    rw [setting?_holderOf] at hsetting
    exact ⟨hafter.put (Slot.sound_of_setting? hsetting) root, rfl⟩
  | case5 slots holder step path _ hstep ih =>
    obtain ⟨⟨after', inner⟩, hinner, hrest⟩ := bind_eq_ok_iff.mp hplace
    obtain ⟨held', hheld, heq⟩ := bind_eq_ok_iff.mp hrest
    cases heq
    exact ⟨(ih h hinner).1, Slot.setting?_of_hold hheld⟩

/-- A slot that goes where its name leads keeps all texts storable. -/
private theorem SoundTable.nestSlot {names after : Names} {name : Wide} {slot : Slot}
    (h : SoundTable names.slots) (hnest : names.nestSlot name slot = .ok after) :
    SoundTable after.slots := by
  unfold Names.nestSlot at hnest
  split at hnest
  · cases hnest
    split
    · exact h
    · exact h
  · next outer path _ =>
    obtain ⟨⟨slots, holder⟩, hplace, heq⟩ := map_eq_ok_iff.mp hnest
    cases heq
    obtain ⟨hslots, hsetting⟩ := setting?_of_place h hplace
    rw [setting?_holderOf] at hsetting
    exact hslots.put (Slot.sound_of_setting? hsetting) _

/-- A name that is put where its dots lead keeps all texts storable. -/
theorem SoundTable.nest {names after : Names} {name : Wide} (h : SoundTable names.slots)
    (hnest : names.nest name = .ok after) : SoundTable after.slots := by
  unfold Names.nest at hnest
  split at hnest
  · exact h.nestSlot hnest
  · exact h.nestSlot hnest
  · cases hnest
    exact h

/-! ## Settings -/

/-- All settings that a file gives are storable. -/
theorem storable_of_ofText {commonItems : List Slot} {text : String} {raw : Raw}
    (h : Raw.ofText commonItems text = .ok raw) : ∀ w ∈ raw.values, Storable w := by
  obtain ⟨reading, hreading, hrest⟩ := bind_eq_ok_iff.mp h
  obtain ⟨slots, hnested, heq⟩ := bind_eq_ok_iff.mp hrest
  cases heq
  obtain ⟨names, hnames, rfl⟩ := map_eq_ok_iff.mp hnested
  -- First the items one by one, then the groups that go inside others.
  have hread : SoundTable reading.slots :=
    of_foldlM_eq_ok (P := fun reading => SoundTable reading.slots) (soundTable_start commonItems)
      (fun item hitem _ _ h => h.take (sound_of_mem_items hitem)) hreading
  have hsound : SoundTable names.slots :=
    of_foldlM_eq_ok (P := fun names => SoundTable names.slots) hread
      (fun _ _ _ _ h => h.nest) hnames
  intro w hw
  obtain ⟨⟨key, text⟩, hentry, rfl⟩ := List.mem_map.mp hw
  obtain ⟨⟨name, slot⟩, hmem, hsetting⟩ := List.mem_filterMap.mp (Table.mem_of_mem_ofList hentry)
  simp only [setting?] at hsetting
  split at hsetting
  · next hkey htext =>
    cases hsetting
    exact hsound name slot (Table.get?_eq_some_iff.mpr hmem) _ htext
  · cases hsetting

end Settings

end KconfigQuery
