import KconfigQuery.Text.Blank
import KconfigQuery.Text.Cut

/-! # Lines of a kernel configuration

A line with an equals sign sets an option; every other line is skipped, be it blank, a comment or
anything else.  The first equals sign separates, so a value may hold more of them.  Blanks around
key and value do not count, nor do the double quotes at the ends of the value.

* `parse_eq_skip_iff`    exactly the lines without an equals sign are skipped
* `bare_key`             a key has no blanks at its ends
* `bare_value`           a value has no double quotes at its ends -/

namespace KconfigQuery.DotConfig

/-- What a line says. -/
inductive Line where
  | skip
  | entry (key value : String)
deriving DecidableEq

namespace Line

/-- Drop the double quotes at both ends, however many there are. -/
def unquote (cs : List Char) : List Char :=
  Text.stripEnds (· == '"') cs

/-- Read a line, given without its line end. -/
def ofChars (cs : List Char) : Line :=
  match Text.cut? '=' cs with
  | none => skip
  | some (left, right) =>
    entry (String.ofList (Text.trim left)) (String.ofList (unquote (Text.trim right)))

/-- Read a line. -/
def parse (line : String) : Line :=
  ofChars line.toList

/-- A line is skipped iff it has no equals sign. -/
theorem ofChars_eq_skip_iff {cs : List Char} : ofChars cs = skip ↔ '=' ∉ cs := by
  rw [← Text.cut?_eq_none_iff]
  unfold ofChars
  split <;> simp_all

/-- The same of a line given as a text. -/
theorem parse_eq_skip_iff {line : String} : parse line = skip ↔ '=' ∉ line.toList :=
  ofChars_eq_skip_iff

/-- The two sides of the separator behind an entry. -/
theorem exists_of_ofChars_eq_entry {cs : List Char} {key value : String}
    (h : ofChars cs = entry key value) :
    ∃ left right, '=' ∉ left ∧ cs = left ++ '=' :: right ∧
      key.toList = Text.trim left ∧ value.toList = unquote (Text.trim right) := by
  unfold ofChars at h
  split at h
  · cases h
  · next left right hcut =>
    obtain ⟨hcs, hl⟩ := Text.cut?_eq_some_iff.mp hcut
    injection h with hk hv
    exact ⟨left, right, hl, hcs, by rw [← hk, String.toList_ofList],
      by rw [← hv, String.toList_ofList]⟩

/-- A key has no blanks at its ends. -/
theorem bare_key {cs : List Char} {key value : String} (h : ofChars cs = entry key value) :
    Text.BareEnds Text.isBlank key.toList := by
  obtain ⟨left, _, -, -, hk, -⟩ := exists_of_ofChars_eq_entry h
  exact hk ▸ Text.bare_stripEnds _ left

/-- A value has no double quotes at its ends. -/
theorem bare_value {cs : List Char} {key value : String} (h : ofChars cs = entry key value) :
    Text.BareEnds (· == '"') value.toList := by
  obtain ⟨_, right, -, -, -, hv⟩ := exists_of_ofChars_eq_entry h
  exact hv ▸ Text.bare_stripEnds _ (Text.trim right)

end Line

end KconfigQuery.DotConfig
