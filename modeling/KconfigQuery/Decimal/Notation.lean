import KconfigQuery.Decimal.Shortest

/-! # Numbers as text

A number is written with the fewest digits that tell it from every other binary number of double
precision: positionally from `1e-6` up to `1e21`, otherwise with an exponent, which always has a
sign.  Whole numbers have no decimal point. -/

namespace KconfigQuery

/-- A decimal number as it is written: `± digits * 10 ^ exponent`. -/
structure Decimal where
  negative : Bool
  digits : Nat
  exponent : Int
deriving DecidableEq

namespace Decimal

/-- What a decimal rounds to in double precision. -/
inductive Rounded where
  | zero
  | finite (value : Binary)
  | infinite

/-- The number of fractions of one binary exponent: a significand has 52 bits after its first. -/
def fractions : Nat := 0x10000000000000

/-- The nearest number of double precision, without its sign. -/
def rounded (d : Decimal) : Rounded :=
  let size := (Nat.toDigits 10 d.digits).length
  if d.digits = 0 ∨ d.exponent + size < -400 then .zero
  else if d.exponent + size > 400 then .infinite
  else
    let bits := (Float.ofScientific d.digits (d.exponent < 0) d.exponent.natAbs).toBits.toNat
    let biased : Nat := bits / fractions
    let fraction : Nat := bits % fractions
    if biased = 0 ∧ fraction = 0 then .zero
    else if biased = 0 then .finite ⟨fraction, -1074, false⟩
    else if biased ≥ 2047 then .infinite
    else .finite ⟨fractions + fraction, (biased : Int) - 1075, fraction = 0 ∧ biased > 1⟩

/-- Decimal digits without zeros at the end; the exponent counts those dropped. -/
def Digits.trimmed : Nat → Digits → Digits
  | 0, d => d
  | n + 1, d => if d.digits % 10 = 0 ∧ d.digits ≠ 0 then trimmed n ⟨d.digits / 10, d.exponent + 1⟩
    else d

/-- The smallest and the largest position of the decimal point that is written out, counted from
    the first digit. -/
def positional : Int × Int := (-5, 21)

/-- Lay out digits. -/
def Digits.layOut (d : Digits) : String :=
  let d := d.trimmed 400
  let digits := Nat.toDigits 10 d.digits
  let point := d.exponent + digits.length
  let zeros n := List.replicate n '0'
  String.ofList <|
    if positional.1 ≤ point ∧ point ≤ positional.2 then
      if 0 ≤ d.exponent then digits ++ zeros d.exponent.natAbs
      else if 0 < point then
        digits.take point.natAbs ++ '.' :: digits.drop point.natAbs
      else '0' :: '.' :: zeros point.natAbs ++ digits
    else
      let exponent := point - 1
      let sign := if exponent < 0 then '-' else '+'
      let fraction := match digits.drop 1 with
        | [] => []
        | more => '.' :: more
      digits.take 1 ++ fraction ++ 'e' :: sign :: Nat.toDigits 10 exponent.natAbs

/-- The text of a number. -/
def text (d : Decimal) : String :=
  let sign := if d.negative then "-" else ""
  match d.rounded with
  | .zero => "0"
  | .infinite => sign ++ "Infinity"
  | .finite value =>
    match value.shortest with
    | some digits => sign ++ digits.layOut
    | none => sign ++ toString value.significand

end Decimal

end KconfigQuery
