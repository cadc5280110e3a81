import KconfigQuery.Settings.Slot
import KconfigQuery.Table

/-! # Looking further

A name that a list or a group does not hold is looked up in its base, then in the base of that, and
so on.  Only lists and groups whose bases end at the root know a base by a name; for the others the
name of the base is a name as any.

* `find?_of_property?`   what a slot has itself is found first
* `base_rebase`          a list or a group can be given another base -/

namespace KconfigQuery.Settings.Slot

open Text (Wide)

/-! ## Bases -/

/-- The base of a slot, or null. -/
def base : Slot → Slot
  | list base _ _ => base
  | group base _ => base
  | _ => null

/-- A list or a group with another base. -/
def withBase (slot base : Slot) : Slot :=
  match slot with
  | list _ length held => list base length held
  | group _ held => group base held
  | plain => plain

/-- The slot can be a base: it holds slots, or it says that there is no base. -/
def isBase : Slot → Bool
  | list .. => true
  | group .. => true
  | named _ => true
  | null => true
  | _ => false

/-- Give a base to a slot.  What cannot be a base changes nothing. -/
def rebase (slot base : Slot) : Slot :=
  if base.isBase then slot.withBase base else slot

theorem base_rebase {slot base : Slot} (h : slot.isHolder) (hb : base.isBase) :
    (slot.rebase base).base = base := by
  cases slot <;> simp_all [isHolder, rebase, withBase, Slot.base]

/-- A slot, its base, the base of that and so on, as far as the fuel reaches. -/
def line (slots : Table Wide Slot) : Nat → Slot → List Slot
  | 0, _ => []
  | fuel + 1, list base length held => list base length held :: line slots fuel base
  | fuel + 1, group base held => group base held :: line slots fuel base
  | fuel + 1, named name =>
    match slots.get? name with
    | some slot => line slots fuel slot
    | none => []
  | _, root => [root]
  | _, _ => []

/-- A slot and all its bases.  A base is kept by a name, or else it is a value that a file gives
    for a base, and such a value has no bases but those that all values have.  So the fuel
    suffices. -/
def bases (slot : Slot) (slots : Table Wide Slot) : List Slot :=
  line slots (2 * slots.size + 4) slot

/-! ## Looking up -/

/-- What a name stands for in a slot alone; a list has a length besides what it holds. -/
def property? : Slot → Wide → Option Slot
  | list _ length held, name =>
    if name = lengthName then some (number ⟨false, length, 0⟩) else held.lookup name
  | group _ held, name => held.lookup name
  | _, _ => none

/-- The names that a slot holds something by. -/
def names : Slot → List Wide
  | list _ _ held => held.map Prod.fst
  | group _ held => held.map Prod.fst
  | _ => []

/-- What a name stands for in a slot or else in its bases. -/
def find? (slot : Slot) (slots : Table Wide Slot) (name : Wide) : Option Slot :=
  (slot.bases slots).findSome? fun slot => slot.property? name

/-- What a slot has itself hides what its bases have. -/
theorem find?_of_property? {slot found : Slot} {name : Wide} (slots : Table Wide Slot)
    (h : slot.property? name = some found) : slot.find? slots name = some found := by
  cases slot <;> simp_all [property?, find?, bases, line]

/-- The name stands for the base of the slot. -/
def isBaseBy (slot : Slot) (slots : Table Wide Slot) (name : Wide) : Bool :=
  name = baseName && (slot.find? slots name).isNone && (slot.bases slots).any (· matches root)

end KconfigQuery.Settings.Slot
