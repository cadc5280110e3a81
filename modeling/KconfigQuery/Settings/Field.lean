import KconfigQuery.Json.Parser
import KconfigQuery.Text.Blank

/-! # Fields of a settings file

A key or a value in a settings file is a field.  A bare field ends at a semicolon or a hash, which
start a comment; a backslash takes the meaning from these and from another backslash.  A field in
quotes is JSON if it can be read as such, so that it can hold any text.

Writing is not the exact opposite of reading: a backslash is written as it is, and so is the
replacement character for an unpaired surrogate, unless the field is written as JSON.

* `decode_quote`       a field written as a JSON string is read back
* `paired_of_decode`   a text that was read can be written as a JSON string -/

namespace KconfigQuery.Settings.Field

/-- The quotes that may stand around a field. -/
def isQuote (c : Char) : Bool :=
  c == '"' || c == '\''

/-- The text starts and ends with the same quote.  One quote alone does both. -/
def isQuoted (cs : List Char) : Bool :=
  match cs.head?, cs.getLast? with
  | some first, some last => isQuote first && first == last
  | _, _ => false

/-- The characters that start a comment. -/
def isComment (c : Char) : Bool :=
  c == ';' || c == '#'

/-- Read a bare field up to its comment.  A backslash that has nothing to take the meaning from
    stands for itself. -/
def unescape : List Char → List Char
  | [] => []
  | ['\\'] => ['\\']
  | '\\' :: c :: cs =>
    if c = '\\' ∨ isComment c then c :: unescape cs else '\\' :: c :: unescape cs
  | c :: cs => if isComment c then [] else c :: unescape cs

/-- What stands between single quotes is taken without them, double quotes belong to the JSON
    string. -/
def unwrap (cs : List Char) : List Char :=
  if cs.head? = some '\'' then (cs.drop 1).dropLast else cs

/-- Read a field. -/
def decode (cs : List Char) : Json :=
  let cs := Text.trim cs
  if isQuoted cs then
    let inner := unwrap cs
    (Json.parse? inner).getD (.string (.ofChars inner))
  else .string (.ofChars (Text.trim (unescape cs)))

/-- The text can only be written as a JSON string. -/
def needsQuotes (cs : List Char) : Bool :=
  cs.any (fun c => c == '=' || c == '\r' || c == '\n') || cs.head? == some '[' ||
    (1 < cs.length && isQuoted cs) || cs != Text.trim cs

/-- Write a field. -/
def encode (w : Text.Wide) : List Char :=
  if needsQuotes w.chars then Json.quote w
  else w.chars.flatMap fun c => if isComment c then ['\\', c] else [c]

/-- A text that is written as a JSON string is decoded as this text. -/
theorem decode_quote {w : Text.Wide} (h : Json.Paired w) :
    decode (Json.quote w) = .string w := by
  have hlast : (Json.quote w).getLast? = some '"' :=
    List.getLast?_concat
  have hhead : (Json.quote w).head? = some '"' := rfl
  have htrim : Text.trim (Json.quote w) = Json.quote w := by
    refine Text.stripEnds_of_bare ⟨?_, ?_⟩
    · intro c hc; rw [hhead] at hc; cases hc; rfl
    · intro c hc; rw [hlast] at hc; cases hc; rfl
  simp [decode, htrim, isQuoted, hhead, hlast, isQuote, unwrap, Json.parse?_quote h]

/-- A text that was read can be written as JSON. -/
theorem paired_of_decode {cs : List Char} {w : Text.Wide} (h : decode cs = .string w) :
    Json.Paired w := by
  simp only [decode] at h
  split at h
  · cases hparse : Json.parse? (unwrap (Text.trim cs)) with
    | some value =>
      rw [hparse, Option.getD_some] at h
      exact Json.paired_of_parse? (hparse.trans (congrArg some h))
    | none =>
      rw [hparse, Option.getD_none] at h
      cases h
      exact Json.paired_ofChars _
  · cases h
    exact Json.paired_ofChars _

end KconfigQuery.Settings.Field
