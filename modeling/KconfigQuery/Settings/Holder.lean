import KconfigQuery.Settings.Length

/-! # Putting slots in lists and groups

What is put in a list or a group is held there by its name.  Two names are special: a list takes its
length by one, and whatever knows its base by a name takes another base by it.

An entry of a file adds to a list, if that is what its name stands for.  The list may be in a base,
and then it is in that base that it grows.

* `get?_of_hold`   a slot that was put in by no special name is held by it -/

namespace KconfigQuery.Settings.Slot

open Text (Wide)

/-! ## One slot -/

/-- Put a slot in another one by a name.  It cannot give a list what is no length. -/
def hold (holder : Slot) (slots : Table Wide Slot) (name : Wide) (slot : Slot) :
    Except Defect Slot :=
  if holder.isList ∧ name = lengthName then
    (lengthOf slots slot).map fun length => holder.resize length
  else if holder.isBaseBy slots name then .ok (holder.rebase slot)
  else .ok (holder.put name slot)

/-- A slot that was put in by no special name is held by it. -/
theorem get?_of_hold {holder held slot : Slot} {slots : Table Wide Slot} {name : Wide}
    (h : holder.isHolder) (hl : name ≠ lengthName) (hb : name ≠ baseName)
    (hh : holder.hold slots name slot = .ok held) : held.get? name = some slot := by
  simp only [hold, hl, and_false, if_false, isBaseBy, hb, decide_false, Bool.false_and,
    Bool.false_eq_true, Except.ok.injEq] at hh
  rw [← hh, get?_put h, if_pos rfl]

/-! ## One more item -/

/-- Add an item to a slot that is a list.  What is kept by a name grows where it is kept. -/
def push? (slots : Table Wide Slot) (item : Slot) : Slot → Option (Table Wide Slot × Slot)
  | list base length held => some (slots, (list base length held).push item)
  | named name =>
    match slots.get? name with
    | some (list base length held) =>
      some (slots.put name ((list base length held).push item), named name)
    | _ => none
  | _ => none

/-- Add an item to the list that a name stands for in a holder.  If the holder knows nothing by the
    name, its base becomes what is given. -/
def pushBy? (slots : Table Wide Slot) (name : Wide) (item holder : Slot)
    (inBase? : Option (Table Wide Slot × Slot)) : Option (Table Wide Slot × Slot) :=
  match holder.property? name with
  | some inner => (push? slots item inner).map fun (slots, inner) => (slots, holder.put name inner)
  | none => inBase?.map fun (slots, base) => (slots, holder.withBase base)

/-- Add an item to the list that a name stands for in a holder or else in its bases. -/
def extend? (slots : Table Wide Slot) (name : Wide) (item : Slot) :
    Slot → Option (Table Wide Slot × Slot)
  | list base length held =>
    pushBy? slots name item (list base length held) (extend? slots name item base)
  | group base held => pushBy? slots name item (group base held) (extend? slots name item base)
  | named kept =>
    match slots.get? kept with
    | some holder =>
      (pushBy? slots name item holder none).map fun (slots, holder) =>
        (slots.put kept holder, named kept)
    | none => none
  | _ => none

/-- Add an item to the base of a holder, if that is a list and what a name stands for. -/
def extendBase? (slots : Table Wide Slot) (name : Wide) (item holder : Slot) :
    Option (Table Wide Slot × Slot) :=
  if holder.isBaseBy slots name then
    (push? slots item holder.base).map fun (slots, base) => (slots, holder.withBase base)
  else none

/-! ## Entries -/

/-- What is kept by names and a holder, after an entry inside the holder. -/
def assign (slots : Table Wide Slot) (holder : Slot) (name : Wide) (listed : Bool)
    (value : Json) : Except Defect (Table Wide Slot × Slot) :=
  if holder.isList ∧ name = lengthName then
    (holder.hold slots name (ofJson value)).map fun holder => (slots, holder)
  else if listed then
    (holder.hold slots name (renewed (holder.get? name) true value)).map fun holder =>
      (slots, holder)
  else
    match extend? slots name (ofJson value) holder <|> extendBase? slots name (ofJson value) holder
    with
    | some changed => .ok changed
    | none => (holder.hold slots name (ofJson value)).map fun holder => (slots, holder)

end KconfigQuery.Settings.Slot
