import KconfigQuery.Json.Measure
import KconfigQuery.Settings.Base
import KconfigQuery.Settings.Defect

/-! # Lengths

The length of a list can be set to what is a length: a whole number that is not too great, or what
has the text of one.  Null has the length zero, and so has a text of blanks.

The text of a list without items is empty, and the text of a list with one item is that of the
item.  All other lists and groups have no text that is a number.  But what counts as a list here is
what has the base of all lists among its bases: a group does so if one of its bases is a list, and a
list no longer does so if it is given another base.

What has no text at all cannot be a length, and neither can a list with such an item.  A group that
a header makes has no text, for it has no base; and what holds a slot by the name `toString` has
none.

* `lengthOf_null`   null empties a list -/

namespace KconfigQuery.Settings.Slot

open Text (Wide)

/-! ## Plain texts -/

mutual

/-- The number of slots in a slot, with itself. -/
def weight : Slot → Nat
  | list base _ held => base.weight + heldWeight held + 1
  | group base held => base.weight + heldWeight held + 1
  | _ => 1

/-- The number of slots that are held. -/
def heldWeight : List (Wide × Slot) → Nat
  | [] => 0
  | (_, slot) :: held => slot.weight + heldWeight held

end

/-- How many items there are by what stands for their number: as many as its whole part says, and
    none if it says nothing or is negative. -/
def count (number? : Option Decimal) : Nat :=
  match number? with
  | none => 0
  | some value =>
    if value.negative then 0
    else
      match value.rounded with
      | .zero => 0
      | .finite value => value.floor
      | .infinite => maxLength

/-- The name of what joins the items of a list to its text.  What is put in by this name takes its
    place and joins nothing. -/
def joinName : Wide := .ofString "join"

/-- The items of the slot are joined to its text, as all lists do by what they have in common. -/
def joins (slot : Slot) (slots : Table Wide Slot) : Bool :=
  (slot.find? slots joinName).isNone &&
    (slot.bases slots).any fun slot => slot.isList && slot.base matches root

/-- The name of what tells the text of a list or a group.  What is put in by this name takes its
    place and tells nothing. -/
def textName : Wide := .ofString "toString"

/-- A list or a group has a text, as all values do by the base of all bases. -/
def hasText (slot : Slot) (slots : Table Wide Slot) : Bool :=
  (slot.find? slots textName).isNone && (slot.bases slots).any (· matches root)

/-- The items among the first ones of a slot, in its bases too. -/
def firstItems (slot : Slot) (slots : Table Wide Slot) (count : Nat) : List Slot :=
  let indices := (slot.bases slots).flatMap fun slot =>
    slot.names.filter fun name => !isBeyond count name && (index? name).isSome
  indices.filterMap (slot.find? slots)

/-- The plain text of a slot, if it is not clear that it is no number: a text of several items has
    commas, but all these items have to have texts.  The fuel counts the slots on the way. -/
def plainText? (slots : Table Wide Slot) : Nat → Slot → Except Defect (Option Wide)
  | 0, _ => .ok none
  | _, text value => .ok (some value)
  | _, flag value => .ok (some (.ofString (if value then "true" else "false")))
  | _, number value => .ok (some (.ofString value.text))
  | _, null => .ok (some [])
  | fuel + 1, slot =>
    if !slot.hasText slots then .error .noText
    else if !slot.joins slots then .ok none
    else do
      let size? ← match slot.find? slots lengthName with
        | some (flag value) => .ok (some (.ofBool value))
        | some (number value) => .ok (some value)
        | some size => (plainText? slots fuel size).map (·.bind Decimal.ofText?)
        | none => .ok none
      match count size? with
      | 0 => return some []
      | 1 =>
        match slot.find? slots (indexName 0) with
        | some item => plainText? slots fuel item
        | none => return some []
      | count =>
        for item in slot.firstItems slots count do
          let _ ← plainText? slots fuel item
        return none

/-! ## Lengths -/

/-- The number that a slot is. -/
def number? (slots : Table Wide Slot) : Slot → Except Defect (Option Decimal)
  | flag value => .ok (some (.ofBool value))
  | number value => .ok (some value)
  | slot =>
    (plainText? slots (heldWeight slots.entries + slot.weight + 1) slot).map
      (·.bind Decimal.ofText?)

/-- The length that a slot gives to a list. -/
def lengthOf (slots : Table Wide Slot) (slot : Slot) : Except Defect Nat :=
  match number? slots slot with
  | .ok number? =>
    match (number?.bind Decimal.natural?).filter (· ≤ maxLength) with
    | some length => .ok length
    | none => .error .listLength
  | .error defect => .error defect

/-- Null empties a list. -/
@[simp] theorem lengthOf_null (slots : Table Wide Slot) : lengthOf slots null = .ok 0 := by
  have hzero : Decimal.natural? ⟨false, 0, 0⟩ = some 0 := by
    simp [Decimal.natural?, Decimal.rounded]
  have hnumber : Decimal.ofText? [] = some ⟨false, 0, 0⟩ := rfl
  simp [lengthOf, number?, plainText?, Except.map, hnumber, hzero, Option.filter]

end KconfigQuery.Settings.Slot
