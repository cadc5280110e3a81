import KconfigQuery.Settings.Holder

/-! # Groups inside others

When a settings file has been read, its groups and nulls go where their names say that they belong.
A name has parts at its dots: the last part is what a group is known by inside its outer one, and
the parts before lead to that one, and a file cannot be read if they lead to a null.  A group whose
name leads nowhere only gets a further name, the one without backslashes.

A group stays known by every name that it has had, and what is put in it by one name is there by
all others.  So it is kept by one name only: its further names lead to that one, and inside another
group it is a slot `named`.

* `get?_rename`   a further name stands for the same as the first, and no other name changes
* `nest_text`     a text stays where it is -/

namespace KconfigQuery.Settings

open Text (Letter Wide)

/-! ## Parts of names -/

/-- The parts of a name at its dots; a dot after a backslash is no such dot.  The first argument
    is the letter before. -/
def nameParts (before : Option Letter) : Wide → List Wide
  | [] => [[]]
  | c :: cs =>
    if c = .char '.' ∧ before ≠ some (.char '\\') then [] :: nameParts (some c) cs
    else
      match nameParts (some c) cs with
      | [] => [[c]]
      | part :: parts => (c :: part) :: parts

/-- The names of the groups that a group of this name lies in, from the outside. -/
def outerNames (name : Wide) : List Wide :=
  (nameParts none name).dropLast.filter (· ≠ Slot.baseName)

/-- The last part of a name as it is written. -/
def lastPart (name : Wide) : Wide :=
  ((nameParts none name).getLast?).getD []

/-- The last part of a name with bare dots, which is what a group is known by inside its outer
    one. -/
def innerName (name : Wide) : Wide :=
  Text.replaceAll [.char '\\', .char '.'] [.char '.'] (lastPart name)

/-! ## Names -/

/-- What the names of a file stand for. -/
structure Names where
  /-- What is kept, by the name that it is kept by. -/
  slots : Table Wide Slot
  /-- The name that something is kept by, for its further names. -/
  further : Table Wide Wide

namespace Names

/-- The names of these slots. -/
def ofSlots (slots : Table Wide Slot) : Names where
  slots
  further := .empty

/-- The name by which it is kept what a name stands for. -/
def origin (names : Names) (name : Wide) : Wide :=
  (names.further.get? name).getD name

/-- What a name stands for. -/
def get? (names : Names) (name : Wide) : Option Slot :=
  names.slots.get? (names.origin name)

/-- Give a further name to what a name stands for. -/
def rename (names : Names) (name further : Wide) : Names :=
  { names with further := names.further.put further (names.origin name) }

/-- After renaming, the further name stands for what the name stood for. -/
theorem get?_rename (names : Names) (name further other : Wide) :
    (names.rename name further).get? other =
      if other = further then names.get? name else names.get? other := by
  simp only [get?, origin, rename, Table.get?_put]
  split <;> simp

/-! ## Putting groups inside others -/

/-- What is there already, if it holds slots or is null, or else a new group. -/
def holderOf (current? : Option Slot) : Slot :=
  match current? with
  | some .null => .null
  | some slot => if slot.isHolder then slot else .group .null []
  | none => .group .null []

/-- Put a slot in a holder at the end of a path.  What is on the path becomes a group if it is a
    plain value, but nothing leads through a null.  What is kept by a name is changed where it is
    kept. -/
def place (name : Wide) (slot : Slot) :
    List Wide → Table Wide Slot → Slot → Except Defect (Table Wide Slot × Slot)
  | [], _, .null => .error (.insideNull name)
  | _ :: _, _, .null => .error .throughNull
  | [], slots, holder => (holder.hold slots name slot).map fun holder => (slots, holder)
  | step :: path, slots, holder =>
    match holder.get? step with
    | some (.named root) =>
      (place name slot path slots (holderOf (slots.get? root))).map fun (slots, inner) =>
        (slots.put root inner, holder)
    | current? => do
      let (slots, inner) ← place name slot path slots (holderOf current?)
      let holder ← holder.hold slots step inner
      return (slots, holder)

/-- Put a slot where a name says that it belongs. -/
def nestSlot (names : Names) (name : Wide) (slot : Slot) : Except Defect Names :=
  match outerNames name with
  | [] =>
    .ok (if innerName name = lastPart name then names else names.rename name (innerName name))
  | outer :: path =>
    let root := names.origin outer
    (place (innerName name) slot path names.slots (holderOf (names.slots.get? root))).map
      fun (slots, holder) => { names with slots := slots.put root holder }

/-- Put what a name stands for where it belongs, if it is a group or a null. -/
def nest (names : Names) (name : Wide) : Except Defect Names :=
  match names.get? name with
  | some (.group ..) => names.nestSlot name (.named (names.origin name))
  | some .null => names.nestSlot name .null
  | _ => .ok names

/-- A text stays where it is. -/
theorem nest_text {names : Names} {name value : Wide}
    (h : names.get? name = some (.text value)) : names.nest name = .ok names := by
  simp [nest, h]

end Names

end KconfigQuery.Settings
