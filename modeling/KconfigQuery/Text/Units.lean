import KconfigQuery.Text.Control

/-! # The width of a text in 16-bit units

Boxes are drawn by counting 16-bit units: a character of the basic plane is one unit wide, every
other character two.  Terminal control sequences take no room, so they are left out of the count. -/

namespace KconfigQuery.Text

/-- The width of one character. -/
def charUnits (c : Char) : Nat :=
  if c.toNat < 0x10000 then 1 else 2

/-- The width of a text. -/
def units : List Char → Nat
  | [] => 0
  | c :: cs => charUnits c + units cs

/-- The width of a text as a terminal shows it. -/
def shownUnits (s : String) : Nat :=
  units (dropSequences s.length s.toList)

end KconfigQuery.Text
