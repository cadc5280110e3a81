import KconfigQuery.Decimal.Literal
import KconfigQuery.Json.Basic
import KconfigQuery.Text.Blank

/-! # Values as numbers

Where a number belongs any value may stand, and it is the number that its text is, if its text is
one.  Null is zero, and a truth value is zero or one. -/

namespace KconfigQuery

open Text (Wide)

/-- The number that a text is.  Blanks around it do not count. -/
def Decimal.ofText? (text : Wide) : Option Decimal :=
  text.string?.bind fun text => ofChars? (Text.trim text.toList)

/-- The number that a truth value is. -/
def Decimal.ofBool (value : Bool) : Decimal :=
  ⟨false, value.toNat, 0⟩

namespace Json

/-- The number that a value is. -/
def measure? : Json → Option Decimal
  | null => some ⟨false, 0, 0⟩
  | bool value => some (.ofBool value)
  | number value => some value
  | value => Decimal.ofText? value.letters

end Json

end KconfigQuery
