import KconfigQuery.Decimal.Literal
import KconfigQuery.Json.Basic

/-! # What names stand for

While a settings file is read, a name stands for a slot: a plain value, a list or a group.  Lists
and groups hold further slots by name.  The items of a list are held by their indices, and its
length can be set by the name `length`, but only to what is a length.

A list or a group also has a base, where a name is looked up that it does not hold itself.  All
lists have one list in common as their base, and it can be given items.  A group that a header makes
has no base.

* `index?_indexName`    the name of an index is that index
* `get?_put`            the slot just put is found, every other name is as before
* `items_listOf`        a list has the items that it was made of -/

namespace KconfigQuery.Settings

open Text (Wide)

/-- What a name stands for.  Among the slots that are held, the one put in last comes first, and of
    two by one name the first counts. -/
inductive Slot where
  | text (value : Wide)
  | flag (value : Bool)
  | number (value : Decimal)
  /-- As a base: no base. -/
  | null
  | list (base : Slot) (length : Nat) (held : List (Wide × Slot))
  | group (base : Slot) (held : List (Wide × Slot))
  /-- What is kept by a name of the file. -/
  | named (name : Wide)
  /-- The base of all bases.  It holds nothing. -/
  | root
deriving Inhabited

namespace Slot

/-! ## Names in a list -/

/-- The greatest length of a list. -/
def maxLength : Nat := 4294967295

/-- The name of an item by its index. -/
def indexName (index : Nat) : Wide :=
  .ofString (toString index)

/-- The index that a name is, if it is one. -/
def index? (name : Wide) : Option Nat :=
  match Decimal.digits? name.chars with
  | some (digits, []) =>
    let index := Decimal.natOfDigits digits
    if name = indexName index ∧ index < maxLength then some index else none
  | _ => none

private theorem chars_indexName (index : Nat) :
    (indexName index).chars = Nat.toDigits 10 index := by
  simp [indexName, Wide.ofString, Nat.toString_eq_repr]

/-- The name of an item is read as its index. -/
theorem index?_indexName {index : Nat} (h : index < maxLength) :
    index? (indexName index) = some index := by
  simp [index?, chars_indexName, Decimal.digits?_toDigits, Decimal.natOfDigits_toDigits, h]

/-- Different items have different names. -/
private theorem indexName_injective {index other : Nat} (h : indexName index = indexName other) :
    index = other := by
  have hdigits := congrArg Wide.chars h
  rw [chars_indexName, chars_indexName] at hdigits
  rw [← Decimal.natOfDigits_toDigits index, hdigits, Decimal.natOfDigits_toDigits]

/-- The name of a list's length. -/
def lengthName : Wide := .ofString "length"

/-- The name of a slot's base.  Nothing that a file names by a text has this name. -/
def baseName : Wide := .ofString "__proto__"

/-! ## Looking in -/

/-- The slot of a name inside a slot. -/
def get? : Slot → Wide → Option Slot
  | list _ _ held, name => held.lookup name
  | group _ held, name => held.lookup name
  | _, _ => none

/-- Slots that hold others. -/
def isHolder : Slot → Bool
  | list .. => true
  | group .. => true
  | _ => false

/-- Slots that are lists. -/
def isList : Slot → Bool
  | list .. => true
  | _ => false

/-! ## Putting in -/

/-- Put a slot inside a slot.  An item beyond the end of a list makes it longer, and nothing is kept
    in a plain value. -/
def put (holder : Slot) (name : Wide) (slot : Slot) : Slot :=
  match holder with
  | list base length held =>
    let length := match index? name with
      | some index => max length (index + 1)
      | none => length
    list base length ((name, slot) :: held)
  | group base held => group base ((name, slot) :: held)
  | plain => plain

/-- What was put inside a holder is found there, and all else as before. -/
theorem get?_put {holder : Slot} (h : holder.isHolder) (name : Wide) (slot : Slot) (other : Wide) :
    (holder.put name slot).get? other = if other = name then some slot else holder.get? other := by
  cases holder <;> simp_all [isHolder, put, get?, List.lookup_cons] <;> split <;> simp_all

/-- Add an item to a list. -/
def push (holder slot : Slot) : Slot :=
  match holder with
  | list base length held => list base (length + 1) ((indexName length, slot) :: held)
  | other => other

/-- The list of items, with a base. -/
def listOf (base : Slot) (items : List Slot) : Slot :=
  items.foldl push (list base 0 [])

/-- What all lists have in common: a list that is the base of all others.  It is kept by the name of
    a base. -/
def commonList (items : List Slot) : Slot :=
  listOf root items

/-- The list of items. -/
def ofItems (items : List Slot) : Slot :=
  listOf (named baseName) items

/-- The items of a list. -/
def items : Slot → List Slot
  | list _ length held =>
    (List.range length).filterMap fun index => held.lookup (indexName index)
  | _ => []

/-- A new item hides none before it. -/
private theorem filterMap_lookup_cons (length : Nat) (slot : Slot) (held : List (Wide × Slot))
    {indices : List Nat} (h : ∀ index ∈ indices, index < length) :
    indices.filterMap (fun index => ((indexName length, slot) :: held).lookup (indexName index)) =
      indices.filterMap fun index => held.lookup (indexName index) := by
  induction indices with
  | nil => rfl
  | cons index indices ih =>
    have hne : indexName index ≠ indexName length := fun he =>
      Nat.ne_of_lt (h index List.mem_cons_self) (indexName_injective he)
    rw [List.filterMap_cons, List.filterMap_cons, List.lookup_cons, beq_eq_false_iff_ne.2 hne,
      ih fun other hother => h other (List.mem_cons_of_mem _ hother)]

/-- An item that is added comes last. -/
private theorem items_push (base : Slot) (length : Nat) (held : List (Wide × Slot)) (slot : Slot) :
    ((list base length held).push slot).items = (list base length held).items ++ [slot] := by
  simp only [push, items]
  rw [List.range_succ, List.filterMap_append,
    filterMap_lookup_cons length slot held fun _ h => List.mem_range.1 h]
  simp

/-- **The items of a list** that is made of items are these items. -/
theorem items_listOf (base : Slot) (slots : List Slot) : (listOf base slots).items = slots := by
  -- Induction on the items, for a list that has some already.
  have h : ∀ (length : Nat) (held : List (Wide × Slot)),
      (slots.foldl push (list base length held)).items =
        (list base length held).items ++ slots := by
    induction slots with
    | nil => simp
    | cons slot slots ih =>
      intro length held
      have hpush := items_push base length held slot
      simp only [push] at hpush
      rw [List.foldl_cons, push, ih, hpush, List.append_assoc, List.singleton_append]
  exact h 0 []

/-- The name is that of an item beyond a length. -/
def isBeyond (length : Nat) (name : Wide) : Bool :=
  match index? name with
  | some index => length ≤ index
  | none => false

/-- A list of another length. -/
def resize (length : Nat) : Slot → Slot
  | list base _ held => list base length (held.filter fun entry => !isBeyond length entry.1)
  | other => other

/-! ## Values -/

mutual

/-- The slot that a value fills. -/
def ofJson : Json → Slot
  | .null => null
  | .bool value => flag value
  | .number value => number value
  | .string value => text value
  | .array items => ofItems (ofJsonItems items)
  | .object fields => group root (ofJsonFields [] fields)

/-- The slots that items fill. -/
def ofJsonItems : List Json → List Slot
  | [] => []
  | item :: items => ofJson item :: ofJsonItems items

/-- The slots that fields fill, put before what is held. -/
def ofJsonFields (held : List (Wide × Slot)) : List (Wide × Json) → List (Wide × Slot)
  | [] => held
  | (name, value) :: fields => ofJsonFields ((name, ofJson value) :: held) fields

end

/-- What a name stands for after one more value for it.  Once a list, always a list. -/
def renewed (current? : Option Slot) (listed : Bool) (value : Json) : Slot :=
  match current?, listed with
  | some (list base length held), _ => (list base length held).push (ofJson value)
  | some slot, true => ofItems [slot, ofJson value]
  | none, true => ofItems [ofJson value]
  | _, false => ofJson value

/-! ## Slots of settings -/

/-- A section of the same name takes the place of what is there. -/
def givesWay : Slot → Bool
  | text value => value = []
  | flag value => !value
  | number value => (value.rounded matches .zero)
  | null => true
  | _ => false

/-- The text of a setting. -/
def setting? : Slot → Option Wide
  | text value => some value
  | flag value => some (.ofString (if value then "true" else "false"))
  | _ => none

end Slot

end KconfigQuery.Settings
