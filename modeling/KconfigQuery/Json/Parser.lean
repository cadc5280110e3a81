import KconfigQuery.Decimal.Literal
import KconfigQuery.Json.Basic
import KconfigQuery.Json.Quoted

/-! # Reading JSON

`Json.parse?` accepts exactly one JSON value with JSON's own white space around it.  The readers
of the parts give what they read and the rest of the text.

* `parse?_quote`       a written string is read as that string
* `paired_of_parse?`   a string that was read can be written -/

namespace KconfigQuery.Json

open Decimal (digits? exponent? natOfDigits)
open Text (Wide)

/-- The white space between the parts of a value. -/
def isSpace (c : Char) : Bool :=
  c == ' ' || c == '\t' || c == '\n' || c == '\r'

/-- Read the part of a number before the point: no zero stands in front of other digits. -/
def integer? : List Char → Option (List Char × List Char)
  | '0' :: cs => some (['0'], cs)
  | cs => digits? cs

/-- Read the part of a number after the point, if there is one. -/
def fraction? : List Char → Option (List Char × List Char)
  | '.' :: cs => digits? cs
  | cs => some ([], cs)

/-- Read a number. -/
def number? (cs : List Char) : Option (Decimal × List Char) := do
  let (negative, cs) := match cs with
    | '-' :: cs => (true, cs)
    | cs => (false, cs)
  let (whole, cs) ← integer? cs
  let (fraction, cs) ← fraction? cs
  let (exponent, cs) ← exponent? cs
  return (⟨negative, natOfDigits (whole ++ fraction), exponent - fraction.length⟩, cs)

mutual

/-- Read a value.  The first argument bounds the depth of calls. -/
def value? : Nat → List Char → Option (Json × List Char)
  | 0, _ => none
  | n + 1, cs =>
    match cs.dropWhile isSpace with
    | '"' :: cs => (body none cs).map fun (text, rest) => (string text, rest)
    | '[' :: cs =>
      match cs.dropWhile isSpace with
      | ']' :: rest => some (array [], rest)
      | cs => (items? n cs).map fun (items, rest) => (array items, rest)
    | '\x7b' :: cs =>
      match cs.dropWhile isSpace with
      | '\x7d' :: rest => some (object [], rest)
      | cs => (fields? n cs).map fun (fields, rest) => (object fields, rest)
    | 't' :: 'r' :: 'u' :: 'e' :: rest => some (bool true, rest)
    | 'f' :: 'a' :: 'l' :: 's' :: 'e' :: rest => some (bool false, rest)
    | 'n' :: 'u' :: 'l' :: 'l' :: rest => some (null, rest)
    | cs => (number? cs).map fun (value, rest) => (number value, rest)

/-- Read the items of an array up to its closing bracket. -/
def items? : Nat → List Char → Option (List Json × List Char)
  | 0, _ => none
  | n + 1, cs =>
    match value? n cs with
    | none => none
    | some (item, rest) =>
      match rest.dropWhile isSpace with
      | ']' :: rest => some ([item], rest)
      | ',' :: rest => (items? n rest).map fun (items, rest) => (item :: items, rest)
      | _ => none

/-- Read the fields of an object up to its closing brace. -/
def fields? : Nat → List Char → Option (List (Wide × Json) × List Char)
  | 0, _ => none
  | n + 1, cs =>
    match cs.dropWhile isSpace with
    | '"' :: cs =>
      match body none cs with
      | none => none
      | some (name, rest) =>
        match rest.dropWhile isSpace with
        | ':' :: rest =>
          match value? n rest with
          | none => none
          | some (value, rest) =>
            let field := (name, value)
            match rest.dropWhile isSpace with
            | '\x7d' :: rest => some ([field], rest)
            | ',' :: rest => (fields? n rest).map fun (fields, rest) => (field :: fields, rest)
            | _ => none
        | _ => none
    | _ => none

end

/-- Read a text as one value. -/
def parse? (cs : List Char) : Option Json :=
  match value? (2 * cs.length + 2) cs with
  | some (value, rest) => if rest.all isSpace then some value else none
  | none => none

/-- A written string is read as the string. -/
theorem parse?_quote {w : Wide} (h : Paired w) : parse? (quote w) = some (string w) := by
  have hspace : List.dropWhile isSpace (quote w) = quote w := rfl
  have hbody : body none (w.flatMap escapeLetter ++ ['"']) = some (w, []) :=
    body_escapeAll h none (fun hsome => by cases hsome) []
  simp only [parse?, value?, hspace]
  simp [quote, hbody]

/-- A text that was read as JSON can be written as JSON. -/
theorem paired_of_parse? {cs : List Char} {w : Wide} (h : parse? cs = some (string w)) :
    Paired w := by
  have hvalue : ∀ (n : Nat) (cs rest : List Char),
      value? n cs = some (string w, rest) → Paired w := by
    intro n cs rest h
    cases n with
    | zero => cases h
    | succ n =>
      unfold value? at h
      split at h
      · obtain ⟨⟨text, after⟩, hbody, heq⟩ := Option.map_eq_some_iff.mp h
        cases heq
        exact (paired_of_body hbody fun _ hmem => (by cases hmem)).1
      -- No other first character starts a string.
      · split at h
        · cases h
        · obtain ⟨_, _, heq⟩ := Option.map_eq_some_iff.mp h
          cases heq
      · split at h
        · cases h
        · obtain ⟨_, _, heq⟩ := Option.map_eq_some_iff.mp h
          cases heq
      · cases h
      · cases h
      · cases h
      · obtain ⟨_, _, heq⟩ := Option.map_eq_some_iff.mp h
        cases heq
  unfold parse? at h
  split at h
  · next value rest hread =>
    split at h
    · cases h
      exact hvalue _ _ _ hread
    · cases h
  · cases h

end KconfigQuery.Json
