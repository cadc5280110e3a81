/-! # Reading bytes as text

Files are read as UTF-8.  Bytes that are not UTF-8 do not fail: each longest run of bytes that
starts a character but does not finish it, and each byte that starts none, is read as one
replacement character U+FFFD.  A byte order mark is kept.

The reader takes one byte at a time; `Pending` is what it remembers of an unfinished character.

* `decodeFrom_of_ascii`   ASCII bytes are read as themselves
* `decodeFrom_of_unfit`   a byte that does not fit an unfinished character is read afresh -/

namespace KconfigQuery.Text.Utf8

/-- The unfinished character at some point of the bytes: how many bytes are still to come, the
    bits read so far, and the range the next byte has to lie in. -/
inductive Pending where
  | clear
  | inside (missing : Nat) (bits low high : Nat)

/-- What stands for bytes that are no character. -/
def replacement : Char := '\uFFFD'

/-- Read a byte that does not continue a character. -/
def start (b : Nat) : List Char × Pending :=
  if b < 0x80 then ([Char.ofNat b], .clear)
  else if b < 0xC2 then ([replacement], .clear)
  else if b < 0xE0 then ([], .inside 1 (b - 0xC0) 0x80 0xBF)
  else if b = 0xE0 then ([], .inside 2 0 0xA0 0xBF)
  else if b = 0xED then ([], .inside 2 0xD 0x80 0x9F)
  else if b < 0xF0 then ([], .inside 2 (b - 0xE0) 0x80 0xBF)
  else if b = 0xF0 then ([], .inside 3 0 0x90 0xBF)
  else if b < 0xF4 then ([], .inside 3 (b - 0xF0) 0x80 0xBF)
  else if b = 0xF4 then ([], .inside 3 4 0x80 0x8F)
  else ([replacement], .clear)

/-- Read one byte: the characters it finishes, and what is pending after it.  A byte that does
    not fit the unfinished character replaces it and is then read afresh. -/
def step (b : Nat) : Pending → List Char × Pending
  | .clear => start b
  | .inside missing bits low high =>
    if low ≤ b ∧ b ≤ high then
      let bits := bits * 64 + b % 64
      if missing ≤ 1 then ([Char.ofNat bits], .clear)
      else ([], .inside (missing - 1) bits 0x80 0xBF)
    else
      let (chars, pending) := start b
      (replacement :: chars, pending)

/-- Read the rest of the bytes, given what is pending. -/
def decodeFrom : Pending → List UInt8 → List Char
  | .clear, [] => []
  | .inside .., [] => [replacement]
  | pending, b :: bs =>
    let (chars, pending) := step b.toNat pending
    chars ++ decodeFrom pending bs

/-- The text of the bytes. -/
def decode (bytes : List UInt8) : String :=
  String.ofList (decodeFrom .clear bytes)

/-- ASCII bytes are read as themselves. -/
theorem decodeFrom_of_ascii {bytes : List UInt8} (h : ∀ b ∈ bytes, b.toNat < 0x80) :
    decodeFrom .clear bytes = bytes.map fun b => Char.ofNat b.toNat := by
  induction bytes with
  | nil => rfl
  | cons b bs ih =>
    simp [decodeFrom, step, start, h b (by simp), ih fun x hx => h x (List.mem_cons_of_mem _ hx)]

/-- A character cut short by another byte is replaced, and the byte is read afresh. -/
theorem decodeFrom_of_unfit {missing bits low high : Nat} {b : UInt8}
    (h : ¬(low ≤ b.toNat ∧ b.toNat ≤ high)) (bs : List UInt8) :
    decodeFrom (.inside missing bits low high) (b :: bs) =
      replacement :: decodeFrom .clear (b :: bs) := by
  simp [decodeFrom, step, h]

example : decodeFrom .clear [0xE2, 0x82, 0x41] = [replacement, 'A'] := by decide

end KconfigQuery.Text.Utf8
