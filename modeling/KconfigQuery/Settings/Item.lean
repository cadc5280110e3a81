import KconfigQuery.Json.Measure
import KconfigQuery.Settings.Defect
import KconfigQuery.Settings.Field
import KconfigQuery.Settings.Slot

/-! # Lines of a settings file

A settings file holds entries `key=value` and section headers `[name]`, one a line, with blank
lines and comments in between.  An entry with brackets after its key, `key[]=value`, adds an item to
a list.

A key and the name of a header may be JSON of any kind, and then it is the text of that JSON that
counts.  A file cannot be read if there is no such text, and neither if a key is null.

* `hasText_of_keyDefect?`   a key without a defect has a text
* `items_empty`             a file without text says nothing -/

namespace KconfigQuery.Settings

open Text (Wide)

/-- What a line says. -/
inductive Item where
  | header (name : Wide)
  /-- A value for a name, or one more item of a list by that name. -/
  | entry (name : Wide) (listed : Bool) (value : Json)
  /-- Nothing that can be read. -/
  | defect (cause : Defect)

/-- The separators that no value may hold as they are: a line with one in its value is no
    entry. -/
def isSeparator (c : Char) : Bool :=
  c == '\u2028' || c == '\u2029'

/-- What stands in the brackets of a header line. -/
def headerField? : List Char → Option (List Char)
  | '[' :: cs =>
    match Text.cut? ']' cs with
    | some (name, after) => if after.all Text.isBlank then some name else none
    | none => none
  | _ => none

/-- The two sides of an entry line; there may be no second one. -/
def entryFields? (cs : List Char) : Option (List Char × Option (List Char)) :=
  match Text.cut? '=' cs with
  | some ([], _) => none
  | some (key, value) => if value.any isSeparator then none else some (key, some value)
  | none => if cs = [] then none else some (cs, none)

/-- The meaning of a value: three words stand for JSON values, bare or quoted. -/
def valueOf : Json → Json
  | .string w =>
    match w.string? with
    | some "true" => .bool true
    | some "false" => .bool false
    | some "null" => .null
    | _ => .string w
  | value => value

/-- The name of a list, from a key with brackets after it. -/
def listName? (key : Wide) : Option Wide :=
  match key.reverse with
  | .char ']' :: .char '[' :: name => if name = [] then none else some name.reverse
  | _ => none

/-- The value of the field of this name in an object.  Of two such fields the last one counts. -/
def fieldOf? (name : Wide) (fields : List (Wide × Json)) : Option Json :=
  fields.reverse.lookup name

/-- What is wrong with the length of a key that is an object.  The length comes before the text:
    only a key that is longer than two brackets can be the name of a list. -/
def lengthDefect? (fields : List (Wide × Json)) : Option Defect :=
  match fieldOf? Slot.lengthName fields with
  | none => none
  | some length =>
    if length.hasText then
      match length.measure? with
      | some measure => if measure.exceeds 2 then some .longKey else none
      | none => none
    else some .noText

/-- What is wrong with a key, if anything. -/
def keyDefect? : Json → Option Defect
  | .null => some .nullKey
  | .object fields =>
    (lengthDefect? fields).or (if (Json.object fields).hasText then none else some .noText)
  | key => if key.hasText then none else some .noText

/-- A key without a defect has a text. -/
theorem hasText_of_keyDefect? {key : Json} (h : keyDefect? key = none) : key.hasText := by
  cases key with
  | null => cases h
  | object fields => simpa using (Option.or_eq_none_iff.mp h).2
  | _ => simpa [keyDefect?] using h

/-- The value of an entry.  A key without a value is switched on. -/
def entryValue : Option (List Char) → Json
  | some field => valueOf (Field.decode field)
  | none => .bool true

/-- The entry with a key and a value.  A text that is the name of a base makes no entry; only a key
    that is JSON of another kind can give that name. -/
def Item.ofFields? (key : List Char) (value? : Option (List Char)) : Option Item :=
  match Field.decode key with
  | .string text =>
    let (name, listed) := match listName? text with
      | some name => (name, true)
      | none => (text, false)
    if name = Slot.baseName then none else some (entry name listed (entryValue value?))
  | json =>
    match keyDefect? json with
    | some cause => some (defect cause)
    | none => some (entry json.letters false (entryValue value?))

/-- The header with a name. -/
def Item.ofName (name : List Char) : Item :=
  let json := Field.decode name
  if json.hasText then header json.letters else defect .noText

/-- The line is blank or a comment. -/
def isIdle (cs : List Char) : Bool :=
  match cs.dropWhile Text.isBlank with
  | [] => true
  | c :: _ => Field.isComment c

/-- What a line says, if anything. -/
def Item.ofLine? (cs : List Char) : Option Item :=
  if isIdle cs then none
  else
    match headerField? cs with
    | some name => some (ofName name)
    | none => (entryFields? cs).bind fun (key, value?) => ofFields? key value?

/-- The items of a file's text, in order. -/
def items (text : String) : List Item :=
  ((Text.pieces '\n' text.toList).flatMap (Text.pieces '\r')).filterMap Item.ofLine?

@[simp] theorem items_empty : items "" = [] := rfl

end KconfigQuery.Settings
