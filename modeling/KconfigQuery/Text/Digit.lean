/-! # Digits

Digits in bases up to sixteen.

* `digitValue?_digitChar`   the digit of a value has that value -/

namespace KconfigQuery.Text

/-- The value of a digit.  The letters up to `f` stand for ten and more. -/
def digitValue? (c : Char) : Option Nat :=
  if '0' ≤ c ∧ c ≤ '9' then some (c.toNat - 48)
  else if 'a' ≤ c ∧ c ≤ 'f' then some (c.toNat - 87)
  else if 'A' ≤ c ∧ c ≤ 'F' then some (c.toNat - 55)
  else none

/-- The digit of a value, in lower case. -/
def digitChar (n : Nat) : Char :=
  if n < 10 then Char.ofNat (48 + n) else Char.ofNat (87 + n)

/-- A written digit is read as its value. -/
theorem digitValue?_digitChar {n : Nat} (h : n < 16) : digitValue? (digitChar n) = some n := by
  have key : ∀ n < 16, digitValue? (digitChar n) = some n := by decide
  exact key n h

/-- The number that one or more digits write in a base. -/
def natOfDigits? (base : Nat) (cs : List Char) : Option Nat :=
  if cs = [] then none
  else
    cs.foldlM (fun n c =>
      match digitValue? c with
      | some d => if d < base then some (n * base + d) else none
      | none => none) 0

end KconfigQuery.Text
