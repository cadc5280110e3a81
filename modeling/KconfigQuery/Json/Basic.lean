import KconfigQuery.Decimal.Notation
import KconfigQuery.Text.Cut
import KconfigQuery.Text.Wide

/-! # JSON values

Settings may be written as JSON, and an error may carry any JSON value.  `Json.letters` is the
plain text of a value, without any quoting. -/

namespace KconfigQuery

open Text (Wide)

/-- A JSON value; the fields of an object are in the order in which they were written. -/
inductive Json where
  | null
  | bool (value : Bool)
  | number (value : Decimal)
  | string (value : Wide)
  | array (items : List Json)
  | object (fields : List (Wide × Json))
deriving Inhabited

namespace Json

mutual

/-- The plain text of a value: the items of an array are joined by commas, and nothing is told
    about an object but that it is one. -/
def letters : Json → Wide
  | null => .ofString "null"
  | bool true => .ofString "true"
  | bool false => .ofString "false"
  | number value => .ofString value.text
  | string value => value
  | array items => Text.joinPieces (.char ',') (itemLetters items)
  | object _ => .ofString "[object Object]"

/-- The plain texts of items; a null leaves its place empty. -/
def itemLetters : List Json → List Wide
  | [] => []
  | null :: items => [] :: itemLetters items
  | item :: items => item.letters :: itemLetters items

end

/-- The plain text of a value in characters. -/
def text (value : Json) : String :=
  value.letters.text

mutual

/-- The value has a plain text.  An object that has a field of the name `toString` has none, for it
    hides what would tell about the object. -/
def hasText : Json → Bool
  | array items => itemsHaveText items
  | object fields => fields.all fun field => field.1 ≠ .ofString "toString"
  | _ => true

/-- All items have a plain text. -/
def itemsHaveText : List Json → Bool
  | [] => true
  | item :: items => item.hasText && itemsHaveText items

end

@[simp] theorem letters_string (w : Wide) : (string w).letters = w := by
  simp [letters]

end Json

end KconfigQuery
