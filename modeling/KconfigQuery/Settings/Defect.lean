import KconfigQuery.Text.Wide

/-! # Why settings cannot be read

A line of a settings file that makes no sense says nothing.  But a few things keep the whole file
from being read: a list whose length is set to what is no length, a key or a name that is JSON and
has no text, and a null where a group should be.

* `kind_eq_rangeError_iff`   only lengths are out of range -/

namespace KconfigQuery.Settings

open Text (Wide)

/-- What keeps a settings file from being read. -/
inductive Defect where
  /-- A list takes for its length what is no length. -/
  | listLength
  /-- The text of an object or a group is asked for that has none. -/
  | noText
  /-- A key is null. -/
  | nullKey
  /-- A key is an object with a length, and one that is long enough for the name of a list. -/
  | longKey
  /-- A null is on the way to where a group belongs. -/
  | throughNull
  /-- A null is where a group or a null of this name belongs. -/
  | insideNull (name : Wide)
deriving DecidableEq

/-- The kind of error that a defect is. -/
def Defect.kind : Defect → String
  | listLength => "RangeError"
  | _ => "TypeError"

/-- The message about a defect. -/
def Defect.message : Defect → String
  | listLength => "Invalid array length"
  | noText => "Cannot convert object to primitive value"
  | nullKey => "Cannot read properties of null (reading 'length')"
  | longKey => "keyRaw.slice is not a function"
  | throughNull => "Cannot convert undefined or null to object"
  | insideNull name => "Cannot set properties of null (setting '" ++ name.text ++ "')"

/-- Only a length is out of range; all other defects are of the wrong type. -/
theorem Defect.kind_eq_rangeError_iff {defect : Defect} :
    defect.kind = "RangeError" ↔ defect = listLength := by
  cases defect <;> simp [kind]

end KconfigQuery.Settings
