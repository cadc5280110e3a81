import KconfigQuery.Text.Utf8

/-! # Texts with unpaired surrogates

A JSON string may name any 16-bit code unit, so it can hold half of a surrogate pair without the
other half, which is no character.  A wide text is a list of letters, and a letter is a character
or such a half.  Where a wide text is written out as characters, each half becomes the
replacement character.

* `text_ofString`           a text survives being taken for a wide one
* `string?_eq_some_iff`     the wide texts that are texts are those without a half -/

namespace KconfigQuery.Text

/-- A character, or an unpaired surrogate by its code. -/
inductive Letter where
  | char (c : Char)
  | surrogate (code : Nat)
deriving DecidableEq

/-- The character that a letter is written as. -/
def Letter.toChar : Letter → Char
  | char c => c
  | surrogate _ => Utf8.replacement

/-- A text that may hold unpaired surrogates. -/
abbrev Wide := List Letter

namespace Wide

/-- Characters as a wide text. -/
def ofChars (cs : List Char) : Wide :=
  cs.map .char

/-- A text as a wide text. -/
def ofString (s : String) : Wide :=
  ofChars s.toList

/-- The characters that a wide text is written as. -/
def chars (w : Wide) : List Char :=
  w.map Letter.toChar

/-- The text that a wide text is written as. -/
def text (w : Wide) : String :=
  String.ofList w.chars

/-- The text that a wide text is, if it holds no unpaired surrogate. -/
def string? (w : Wide) : Option String :=
  if ofString w.text = w then some w.text else none

@[simp] theorem chars_ofChars (cs : List Char) : (ofChars cs).chars = cs := by
  simp [ofChars, chars, Letter.toChar, Function.comp_def]

@[simp] theorem text_ofString (s : String) : (ofString s).text = s := by
  simp [ofString, text]

theorem ofString_injective {s t : String} (h : ofString s = ofString t) : s = t := by
  rw [← text_ofString s, h, text_ofString]

/-- Reading letters as a string loses only which of them were halves of a pair. -/
theorem ofString_text (w : Wide) : ofString w.text = ofChars w.chars := by
  simp [ofString, text]

/-- Letters are a string iff they are the letters of their text. -/
theorem isSome_string?_iff {w : Wide} : w.string?.isSome ↔ ofString w.text = w := by
  unfold string?
  split
  · next h => simp [h]
  · next h => simp [h]

/-- Letters are a string iff they are its letters. -/
theorem string?_eq_some_iff {w : Wide} {s : String} : w.string? = some s ↔ w = ofString s := by
  unfold string?
  constructor
  · intro h
    split at h
    · next hw => rw [← hw, ← Option.some.inj h]
    · cases h
  · rintro rfl
    simp

end Wide

end KconfigQuery.Text
