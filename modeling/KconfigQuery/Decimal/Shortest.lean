/-! # The shortest decimal of a binary number

A binary floating-point number stands for every real number that rounds to it.  Of the decimals
among these, `shortest` picks one with the fewest digits, and of those the nearest; of two that
are equally near it picks the even one.  All of it is exact arithmetic on natural numbers.

* `covers_of_shortest`   what is picked rounds to the number -/

namespace KconfigQuery.Decimal

/-- A positive binary number `significand * 2 ^ exponent`, and whether the next lower number is
    only half as far away as the next higher one. -/
structure Binary where
  significand : Nat
  exponent : Int
  narrowBelow : Bool

/-- A positive decimal `digits * 10 ^ exponent`. -/
structure Digits where
  digits : Nat
  exponent : Int
deriving DecidableEq

/-- A number as a fraction. -/
structure Fraction where
  numerator : Nat
  denominator : Nat

/-- The fraction `n * base ^ exponent`. -/
def Fraction.scaled (n base : Nat) (exponent : Int) : Fraction :=
  match exponent with
  | .ofNat e => ⟨n * Nat.pow base e, 1⟩
  | .negSucc e => ⟨n, Nat.pow base (e + 1)⟩

/-- The order of fractions. -/
def Fraction.le (a b : Fraction) (strict : Bool) : Bool :=
  let left := a.numerator * b.denominator
  let right := b.numerator * a.denominator
  if strict then left < right else left ≤ right

/-- Four times the number, so that half the way to its neighbours is whole. -/
private def Binary.quarters (b : Binary) (n : Nat) : Fraction :=
  .scaled n 2 (b.exponent - 2)

/-- The decimal rounds to the number: it lies between the middles towards the neighbours, which
    count exactly when the significand is even. -/
def Binary.covers (b : Binary) (d : Digits) : Bool :=
  let value := Fraction.scaled d.digits 10 d.exponent
  let strict := b.significand % 2 = 1
  let below := if b.narrowBelow then 1 else 2
  (b.quarters (4 * b.significand - below)).le value strict &&
    value.le (b.quarters (4 * b.significand + 2)) strict

/-- How many digits stand before the decimal point; negative for zeros after it. -/
private def Binary.magnitude (b : Binary) : Int :=
  let value := Fraction.scaled b.significand 2 b.exponent
  ((Nat.toDigits 10 (value.numerator * Nat.pow 10 400 / value.denominator)).length : Int) - 400

/-- The two decimals with a given last place around the number, the nearer one first. -/
def Binary.around (b : Binary) (place : Int) : List Digits :=
  let value := Fraction.scaled b.significand 2 b.exponent
  let unit := Fraction.scaled 1 10 place
  let num := value.numerator * unit.denominator
  let den := value.denominator * unit.numerator
  let low := num / den
  -- Twice the remainder against the denominator tells which of the two is nearer.
  let twice := 2 * (num % den)
  if twice < den ∨ (twice = den ∧ low % 2 = 0) then [⟨low, place⟩, ⟨low + 1, place⟩]
  else [⟨low + 1, place⟩, ⟨low, place⟩]

/-- The first decimal that rounds to the number, on grids from coarse to fine. -/
def Binary.shortest (b : Binary) : Option Digits :=
  -- Seventeen digits always suffice, so twenty grids are more than enough.
  (List.range 20).findSome? fun (n : Nat) => (b.around (b.magnitude - n)).find? b.covers

/-- The shortest digits are read as the number that they were found for. -/
theorem covers_of_shortest {b : Binary} {d : Digits} (h : b.shortest = some d) :
    b.covers d = true := by
  obtain ⟨n, -, hn⟩ := List.exists_of_findSome?_eq_some h
  exact List.find?_some hn

end KconfigQuery.Decimal
