import KconfigQuery.Decimal.Notation
import KconfigQuery.Text.Digit

/-! # Reading numbers

A number in a text is decimal, with an optional sign, point and exponent, or a whole number in one
of the bases sixteen, eight and two, with `0x`, `0o` or `0b` before its digits.  The empty text
writes zero.

* `natOfDigits_toDigits`             the digits of a number write it
* `Binary.whole?_of_exponent_zero`   without an exponent a number is its significand -/

namespace KconfigQuery.Decimal

/-- Read one or more decimal digits. -/
def digits? (cs : List Char) : Option (List Char × List Char) :=
  match cs.takeWhile Char.isDigit with
  | [] => none
  | digits => some (digits, cs.dropWhile Char.isDigit)

/-- The number that decimal digits write. -/
def natOfDigits (cs : List Char) : Nat :=
  Nat.ofDigitChars 10 cs 0

/-- A text of digits and nothing else is read whole. -/
theorem digits?_of_all {cs : List Char} (h : ∀ c ∈ cs, c.isDigit) (hne : cs ≠ []) :
    digits? cs = some (cs, []) := by
  have htake : (cs ++ []).takeWhile Char.isDigit = cs := by
    rw [List.takeWhile_append_of_pos h, List.takeWhile_nil, List.append_nil]
  have hdrop : (cs ++ []).dropWhile Char.isDigit = [] := by
    rw [List.dropWhile_append_of_pos h, List.dropWhile_nil]
  rw [List.append_nil] at htake hdrop
  simp [digits?, htake, hdrop]

/-- A written number is read whole. -/
theorem digits?_toDigits (n : Nat) :
    digits? (Nat.toDigits 10 n) = some (Nat.toDigits 10 n, []) :=
  digits?_of_all (fun _ hc => Nat.isDigit_of_mem_toDigits (by decide) (by decide) hc)
    Nat.toDigits_ne_nil

/-- The digits of a number make this number again. -/
theorem natOfDigits_toDigits (n : Nat) : natOfDigits (Nat.toDigits 10 n) = n :=
  Nat.ofDigitChars_ten_toDigits

/-- Read the exponent of a number, if there is one. -/
def exponent? : List Char → Option (Int × List Char)
  | c :: cs =>
    if c = 'e' ∨ c = 'E' then
      match cs with
      | '-' :: cs => (digits? cs).map fun (ds, rest) => (-(natOfDigits ds : Int), rest)
      | '+' :: cs => (digits? cs).map fun (ds, rest) => ((natOfDigits ds : Int), rest)
      | cs => (digits? cs).map fun (ds, rest) => ((natOfDigits ds : Int), rest)
    else some (0, c :: cs)
  | [] => some (0, [])

/-- The word for what is greater than all numbers. -/
def infinity : String := "Infinity"

/-- The decimal that digits around a point write, with an exponent.  There may be no digits on
    one side of the point.  The word for infinity writes a number beyond double precision. -/
def unsigned? (cs : List Char) : Option Decimal :=
  if cs = infinity.toList then some ⟨false, 1, 1000⟩
  else
    let (whole, rest) := cs.span Char.isDigit
    let (fraction, rest) := match rest with
      | '.' :: rest => rest.span Char.isDigit
      | rest => ([], rest)
    if whole ++ fraction = [] then none
    else
      match exponent? rest with
      | some (exponent, []) =>
        some ⟨false, natOfDigits (whole ++ fraction), exponent - fraction.length⟩
      | _ => none

/-- The base that a letter after a zero announces. -/
def announcedBase? (c : Char) : Option Nat :=
  if c = 'x' ∨ c = 'X' then some 16
  else if c = 'o' ∨ c = 'O' then some 8
  else if c = 'b' ∨ c = 'B' then some 2
  else none

/-- The number that a text without blanks around it writes. -/
def ofChars? (cs : List Char) : Option Decimal :=
  match cs with
  | [] => some ⟨false, 0, 0⟩
  | '-' :: cs => (unsigned? cs).map fun d => { d with negative := true }
  | '+' :: cs => unsigned? cs
  | '0' :: c :: ds =>
    match announcedBase? c with
    | some base => (Text.natOfDigits? base ds).map fun n => ⟨false, n, 0⟩
    | none => unsigned? cs
  | cs => unsigned? cs

/-- The whole number that a binary number is, if it is one. -/
def Binary.whole? (b : Binary) : Option Nat :=
  match b.exponent with
  | .ofNat e => some (b.significand * Nat.pow 2 e)
  | .negSucc e =>
    let unit := Nat.pow 2 (e + 1)
    if b.significand % unit = 0 then some (b.significand / unit) else none

/-- The whole part of a binary number. -/
def Binary.floor (b : Binary) : Nat :=
  match b.exponent with
  | .ofNat e => b.significand * Nat.pow 2 e
  | .negSucc e => b.significand / Nat.pow 2 (e + 1)

/-- A decimal is greater than a natural number, in double precision. -/
def exceeds (d : Decimal) (n : Nat) : Bool :=
  match d.rounded with
  | .zero => false
  | .infinite => !d.negative
  | .finite value => !d.negative && (n < value.floor || n = value.floor && value.whole?.isNone)

/-- The natural number that a decimal rounds to in double precision, if it rounds to one. -/
def natural? (d : Decimal) : Option Nat :=
  match d.rounded with
  | .zero => some 0
  | .infinite => none
  | .finite value => if d.negative then none else value.whole?

theorem Binary.whole?_of_exponent_zero {b : Binary} (h : b.exponent = 0) :
    b.whole? = some b.significand := by
  simp [whole?, h]

end KconfigQuery.Decimal
