import KconfigQuery.Settings.Basic
import KconfigQuery.Settings.Item
import KconfigQuery.Settings.Nesting

/-! # Settings files

The settings in a file are the entries before the first header whose values are texts or truth
values.  Three things take a setting away again:

* a header of the same name, if the value is empty, false or zero;
* a value that is none of those kinds, such as a list `key[]=value`, a null or JSON of another
  kind;
* a group inside the setting: a header such as `[kdir.a]`, or an entry of such a name whose value
  is null or a JSON object.

A file cannot be read at all if something in it has a defect: see `Defect`.

`Raw.ofText` reads the settings of a file and `Raw.render` writes such a file.

Items that a file adds to what all lists have in common are there still when the next file is read.

* `commonItemsAfter_empty`   a file without text adds none -/

namespace KconfigQuery.Settings

open Text (Wide)

/-! ## What the items amount to -/

/-- Where an entry goes. -/
inductive Target where
  /-- To the names of the file. -/
  | file
  /-- Into what a name of the file stands for. -/
  | inside (name : Wide)
  /-- Away. -/
  | nowhere
deriving DecidableEq

/-- What the names of a file stand for so far, and where the next entry goes. -/
structure Reading where
  slots : Table Wide Slot
  target : Target

/-- What a name stands for when its header comes.  A header makes an empty group, but what is there
    and not empty stays. -/
def headed (current? : Option Slot) : Slot :=
  match current? with
  | some slot => if slot.givesWay then .group .null [] else slot
  | none => .group .null []

/-- Take in one item. -/
def Reading.take (reading : Reading) : Item → Except Defect Reading
  | .defect cause => .error cause
  | .header name =>
    if name = Slot.baseName then .ok { reading with target := .nowhere }
    else
      .ok { slots := reading.slots.put name (headed (reading.slots.get? name))
            target := .inside name }
  | .entry name listed value =>
    match reading.target with
    | .nowhere => .ok reading
    | .file =>
      if name = Slot.baseName then .ok reading
      else
        let slot := Slot.renewed (reading.slots.get? name) listed value
        .ok { reading with slots := reading.slots.put name slot }
    | .inside outer =>
      match reading.slots.get? outer with
      | some holder =>
        (Slot.assign reading.slots holder name listed value).map fun (slots, holder) =>
          { reading with slots := slots.put outer holder }
      | none => .ok reading

/-- The start of a file, when all lists have some items in common. -/
def Reading.start (commonItems : List Slot) : Reading where
  slots := Table.empty.put Slot.baseName (Slot.commonList commonItems)
  target := .file

/-- What a list of items amounts to. -/
def Reading.ofItems (commonItems : List Slot) (items : List Item) : Except Defect Reading :=
  items.foldlM take (start commonItems)

/-- What is read before the first item that cannot be taken in. -/
def Reading.upTo (reading : Reading) : List Item → Reading
  | [] => reading
  | item :: items =>
    match reading.take item with
    | .ok reading => reading.upTo items
    | .error _ => reading

/-- What is kept by each name in the end. -/
def Reading.nested (reading : Reading) : Except Defect (Table Wide Slot) :=
  (reading.slots.keys.foldlM Names.nest (.ofSlots reading.slots)).map Names.slots

/-! ## Settings -/

/-- The setting that a name and its slot give. -/
def setting? (name : Wide) (slot : Slot) : Option (Key × Wide) :=
  match name.string?.bind Key.ofName?, slot.setting? with
  | some key, some text => some (key, text)
  | _, _ => none

/-- The settings among what names stand for. -/
def Raw.ofSlots (slots : Table Wide Slot) : Raw :=
  .ofList (slots.entries.filterMap fun (name, slot) => setting? name slot)

/-- The settings of a file's text, if it can be read. -/
def Raw.ofText (commonItems : List Slot) (text : String) : Except Defect Raw := do
  let reading ← Reading.ofItems commonItems (items text)
  let slots ← reading.nested
  return ofSlots slots

/-- The items that all lists have in common when a file's text has been read, as far as it can
    be. -/
def commonItemsAfter (commonItems : List Slot) (text : String) : List Slot :=
  match ((Reading.start commonItems).upTo (items text)).slots.get? Slot.baseName with
  | some slot => slot.items
  | none => []

/-- A file without text leaves to all lists what they had in common. -/
theorem commonItemsAfter_empty (commonItems : List Slot) :
    commonItemsAfter commonItems "" = commonItems := by
  simp [commonItemsAfter, Reading.upTo, Reading.start, Table.get?_put, Slot.commonList,
    Slot.items_listOf]

/-! ## Writing -/

/-- The line for one setting, without its end. -/
def renderSetting (key : Key) (text : Wide) : String :=
  key.name ++ "=" ++ String.ofList (Field.encode text)

/-- The text of a file with the given settings. -/
def Raw.render (raw : Raw) : String :=
  String.join (raw.entries.map fun (key, text) => renderSetting key text ++ "\n")

end KconfigQuery.Settings
