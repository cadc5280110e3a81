import KconfigQuery.Text.Cut
import KconfigQuery.Text.Digit
import KconfigQuery.Text.Units
import KconfigQuery.Text.Utf8

/-! # Texts in messages

A message shows a text between quotes, with backslash escapes for what would not be seen.  A long
text stands on several lines, and of a very long one only the start is shown.

* `escape_of_plain`   a character that can be seen stands for itself
* `flatten_lines`     no character is lost between the lines of a long text -/

namespace KconfigQuery.Text.Literal

/-! ## Quotes and escapes -/

/-- The quote around a text: the first of the three that the text does not hold.  If it holds all
    of them, the first one, and it is escaped inside.  The third is not taken either where a dollar
    sign stands before a brace. -/
def quoteFor (cs : List Char) : Char :=
  if '\'' ∉ cs then '\''
  else if '"' ∉ cs then '"'
  else if '\x60' ∉ cs ∧ ('$', '\x7b') ∉ cs.zip (cs.drop 1) then '\x60'
  else '\''

/-- The escape of a character that is not seen. -/
def control (c : Char) : List Char :=
  if c = '\x08' then ['\\', 'b']
  else if c = '\t' then ['\\', 't']
  else if c = '\n' then ['\\', 'n']
  else if c = '\x0c' then ['\\', 'f']
  else if c = '\r' then ['\\', 'r']
  else ['\\', 'x', (digitChar (c.toNat / 16)).toUpper, (digitChar (c.toNat % 16)).toUpper]

/-- A character as it stands between quotes. -/
def escape (quote c : Char) : List Char :=
  if c = '\\' ∨ (c = quote ∧ c = '\'') then ['\\', c]
  else if c.toNat < 0x20 ∨ (0x7F ≤ c.toNat ∧ c.toNat < 0xA0) then control c
  else [c]

/-- A text between quotes. -/
def quoted (cs : List Char) : List Char :=
  let quote := quoteFor cs
  quote :: cs.flatMap (escape quote) ++ [quote]

/-- Printable ASCII characters other than quotes and backslashes are written as they are. -/
theorem escape_of_plain {quote c : Char} (hb : c ≠ '\\') (hq : c ≠ '\'')
    (h : 0x20 ≤ c.toNat ∧ c.toNat < 0x7F) : escape quote c = [c] := by
  unfold escape
  rw [if_neg (by simp [hb, hq]), if_neg (by omega)]

/-! ## Lines -/

/-- The lines of a text, each with the line feed that ends it. -/
def lines : List Char → List (List Char)
  | [] => []
  | c :: cs =>
    if c = '\n' then [c] :: lines cs
    else
      match lines cs with
      | [] => [[c]]
      | line :: rest => (c :: line) :: rest

/-- The lines of a text make up the text, each with its end. -/
theorem flatten_lines (cs : List Char) : (lines cs).flatten = cs := by
  induction cs with
  | nil => rfl
  | cons c cs ih =>
    unfold lines
    split
    · simp [ih]
    · split
      · next h => simp [h] at ih; simp [← ih]
      · next h => rw [h] at ih; simp [← ih]

/-- How many units a text may have that is shown on one line whatever it holds. -/
def maxLineUnits : Nat := 76

/-- A text as a literal. -/
def ofChars (cs : List Char) : List Char :=
  if units cs ≤ maxLineUnits then quoted cs
  else [' ', '+', '\n', ' ', ' '].intercalate ((lines cs).map quoted)

/-! ## Starts -/

/-- The start of a text with up to `n` units.  Of a character that does not fit, half is taken
    where there is room for half, and that is no character any more. -/
def takeUnits : Nat → List Char → List Char
  | _, [] => []
  | n, c :: cs =>
    if charUnits c ≤ n then c :: takeUnits (n - charUnits c) cs
    else if n = 0 then []
    else [Utf8.replacement]

/-- How many units of a text are looked at.  All that can be shown lies among them, but the quotes
    depend on the whole of a line. -/
def maxTextUnits : Nat := 10000

/-- How many units of a literal are shown. -/
def maxUnits : Nat := 128

/-- A text as it is shown in a message. -/
def shown (cs : List Char) : List Char :=
  let literal := ofChars (takeUnits maxTextUnits cs)
  if units literal ≤ maxUnits then literal else takeUnits maxUnits literal ++ ['.', '.', '.']

end KconfigQuery.Text.Literal
