import KconfigQuery.DotConfig.Line

/-! # The grammar of an option line

Reading a line looks for its first equals sign and strips both sides.  A line is spelt the other
way round: a key and a value are given, quotes go around the value, and blanks around both.  The two
agree on every line: what is read is what was spelt, whatever was chosen for the quotes and the
blanks, and every line with an equals sign has a spelling.

* `Spelling.parse_line`  a line that is spelt out is read as its key and its value
* `exists_spelling`      an entry that is read has a spelling
* `parse_iff_spelling`   so a line is an entry exactly for the key and value that it spells -/

namespace KconfigQuery.DotConfig.Line

/-- A way to spell an entry.  Blanks may stand around the key and around the quoted value, and any
    number of quotes on either side of the value. -/
structure Spelling where
  beforeKey : String
  key : String
  afterKey : String
  beforeValue : String
  openingQuotes : String
  value : String
  closingQuotes : String
  afterValue : String
  blank_around_key : ∀ c ∈ (beforeKey ++ afterKey).toList, Text.isBlank c = true
  blank_around_value : ∀ c ∈ (beforeValue ++ afterValue).toList, Text.isBlank c = true
  quotes : ∀ c ∈ (openingQuotes ++ closingQuotes).toList, c = '"'
  no_equals : '=' ∉ key.toList
  bare_key : Text.BareEnds Text.isBlank key.toList
  bare_value : Text.BareEnds (· == '"') value.toList
  bare_quoted :
    Text.BareEnds Text.isBlank (openingQuotes ++ value ++ closingQuotes).toList

namespace Spelling

/-- The line that is spelt. -/
def line (spelling : Spelling) : String :=
  spelling.beforeKey ++ spelling.key ++ spelling.afterKey ++ "=" ++
    spelling.beforeValue ++
      (spelling.openingQuotes ++ spelling.value ++ spelling.closingQuotes) ++ spelling.afterValue

/-- What stands before the equals sign. -/
def left (spelling : Spelling) : List Char :=
  spelling.beforeKey.toList ++ spelling.key.toList ++ spelling.afterKey.toList

/-- The value with its quotes. -/
def quoted (spelling : Spelling) : List Char :=
  spelling.openingQuotes.toList ++ spelling.value.toList ++ spelling.closingQuotes.toList

/-- What stands after the equals sign. -/
def right (spelling : Spelling) : List Char :=
  spelling.beforeValue.toList ++ spelling.quoted ++ spelling.afterValue.toList

private theorem toList_line (spelling : Spelling) :
    spelling.line.toList = spelling.left ++ '=' :: spelling.right := by
  simp [line, left, right, quoted]

/-- There is no equals sign before it. -/
private theorem notMem_left (spelling : Spelling) : '=' ∉ spelling.left := by
  -- An equals sign is no blank, and the key has none.
  have hblank := spelling.blank_around_key '='
  have hequals : ¬Text.isBlank '=' = true := by decide
  simp only [left, String.toList_append, List.mem_append] at hblank ⊢
  rintro ((hmem | hmem) | hmem)
  · exact hequals (hblank (.inl hmem))
  · exact spelling.no_equals hmem
  · exact hequals (hblank (.inr hmem))

/-- Without the blanks at its ends, the left side is the key. -/
private theorem trim_left (spelling : Spelling) :
    Text.trim spelling.left = spelling.key.toList := by
  have hblank := spelling.blank_around_key
  simp only [String.toList_append, List.mem_append] at hblank
  exact Text.stripEnds_append (fun c hc => hblank c (.inl hc)) spelling.bare_key
    fun c hc => hblank c (.inr hc)

/-- Without the blanks at its ends, the right side is the value with its quotes. -/
private theorem trim_right (spelling : Spelling) : Text.trim spelling.right = spelling.quoted := by
  have hblank := spelling.blank_around_value
  have hquoted := spelling.bare_quoted
  simp only [String.toList_append, List.mem_append] at hblank hquoted
  exact Text.stripEnds_append (fun c hc => hblank c (.inl hc)) hquoted
    fun c hc => hblank c (.inr hc)

/-- Without the quotes at its ends, that is the value. -/
private theorem unquote_quoted (spelling : Spelling) :
    unquote spelling.quoted = spelling.value.toList := by
  have hquotes : ∀ c ∈ spelling.openingQuotes.toList ++ spelling.closingQuotes.toList,
      (c == '"') = true := by
    intro c hc
    rw [← String.toList_append] at hc
    exact beq_iff_eq.mpr (spelling.quotes c hc)
  exact Text.stripEnds_append (fun c hc => hquotes c (List.mem_append_left _ hc))
    spelling.bare_value fun c hc => hquotes c (List.mem_append_right _ hc)

/-- A line that is spelt out is read as its key and its value. -/
theorem parse_line (spelling : Spelling) :
    parse spelling.line = .entry spelling.key spelling.value := by
  -- The line is cut at the equals sign, and then each side is stripped.
  have hcut := Text.cut?_append spelling.notMem_left spelling.right
  rw [parse, toList_line, ofChars, hcut]
  simp only [trim_left, trim_right, unquote_quoted, String.ofList_toList]

end Spelling

/-- An entry that is read has a spelling: what was stripped away are the blanks and the quotes. -/
theorem exists_spelling {text key value : String} (h : parse text = .entry key value) :
    ∃ spelling : Spelling,
      spelling.line = text ∧ spelling.key = key ∧ spelling.value = value := by
  have hbareKey : Text.BareEnds Text.isBlank key.toList := bare_key h
  have hbareValue : Text.BareEnds (· == '"') value.toList := bare_value h
  obtain ⟨left, right, hleft, htext, hkey, hvalue⟩ := exists_of_ofChars_eq_entry h
  -- Whatever stripping takes away is put back around what it leaves.
  obtain ⟨w₁, w₂, hw₁, hw₂, hleft'⟩ := Text.exists_stripEnds Text.isBlank left
  obtain ⟨w₃, w₄, hw₃, hw₄, hright⟩ := Text.exists_stripEnds Text.isBlank right
  obtain ⟨q₁, q₂, hq₁, hq₂, hquoted⟩ := Text.exists_stripEnds (· == '"') (Text.trim right)
  -- The three stripped texts are the key, the quoted value and the value.
  have hkeyText : left = w₁ ++ key.toList ++ w₂ := by rw [hkey]; exact hleft'
  have hquotedText : Text.trim right = q₁ ++ value.toList ++ q₂ := by rw [hvalue]; exact hquoted
  have hrightText : right = w₃ ++ (q₁ ++ value.toList ++ q₂) ++ w₄ := by
    rw [← hquotedText]
    exact hright
  let spelling : Spelling := {
    beforeKey := String.ofList w₁
    key
    afterKey := String.ofList w₂
    beforeValue := String.ofList w₃
    openingQuotes := String.ofList q₁
    value
    closingQuotes := String.ofList q₂
    afterValue := String.ofList w₄
    blank_around_key := by
      simp only [String.toList_append, String.toList_ofList, List.forall_mem_append]
      exact ⟨hw₁, hw₂⟩
    blank_around_value := by
      simp only [String.toList_append, String.toList_ofList, List.forall_mem_append]
      exact ⟨hw₃, hw₄⟩
    quotes := by
      simp only [String.toList_append, String.toList_ofList, List.forall_mem_append]
      exact ⟨fun c hc => beq_iff_eq.mp (hq₁ c hc), fun c hc => beq_iff_eq.mp (hq₂ c hc)⟩
    no_equals := by
      rw [hkey]
      exact fun hmem => hleft (Text.mem_of_mem_stripEnds hmem)
    bare_key := hbareKey
    bare_value := hbareValue
    bare_quoted := by
      simp only [String.toList_append, String.toList_ofList, ← hquotedText]
      exact Text.bare_stripEnds _ _ }
  refine ⟨spelling, ?_, rfl, rfl⟩
  rw [← String.toList_inj, Spelling.toList_line, htext, hkeyText, hrightText]
  simp [spelling, Spelling.left, Spelling.right, Spelling.quoted]

/-- A line is skipped exactly if it has no equals sign, and it is an entry exactly for the key and
    the value of its spellings.  All spellings of one line have the same key and the same value. -/
theorem parse_iff_spelling (text : String) :
    (parse text = .skip ↔ '=' ∉ text.toList) ∧
      (∀ key value, parse text = .entry key value ↔
        ∃ spelling : Spelling,
          spelling.line = text ∧ spelling.key = key ∧ spelling.value = value) ∧
      ∀ spelling other : Spelling, spelling.line = text → other.line = text →
        spelling.key = other.key ∧ spelling.value = other.value := by
  refine ⟨parse_eq_skip_iff, fun key value => ⟨exists_spelling, ?_⟩, ?_⟩
  · rintro ⟨spelling, rfl, rfl, rfl⟩
    exact spelling.parse_line
  · intro spelling other hline hother
    -- Both are what the one line is read as.
    have hsame : Line.entry spelling.key spelling.value = .entry other.key other.value := by
      rw [← spelling.parse_line, ← other.parse_line, hline, hother]
    injection hsame with hkey hvalue
    exact ⟨hkey, hvalue⟩

/-- Where nothing but quotes is given, any of them can be taken for the opening ones. -/
theorem parse_iff_spelling_only_quotes :
    ∃ spelling other : Spelling, spelling.openingQuotes ≠ other.openingQuotes ∧
      spelling.line = " A=\t\"\"" ∧ other.line = " A=\t\"\"" ∧
      spelling.key = other.key ∧ spelling.value = other.value ∧
      parse " A=\t\"\"" = .entry "A" "" := by
  let spelling : Spelling := {
    beforeKey := " "
    key := "A"
    afterKey := ""
    beforeValue := "\t"
    openingQuotes := "\"\""
    value := ""
    closingQuotes := ""
    afterValue := ""
    blank_around_key := List.all_eq_true.mp (by decide)
    blank_around_value := List.all_eq_true.mp (by decide)
    quotes := by simp
    no_equals := by decide
    bare_key := by decide
    bare_value := by decide
    bare_quoted := by decide }
  -- The same two quotes, one on each side of the value.
  let other : Spelling := {
    spelling with
    openingQuotes := "\""
    closingQuotes := "\""
    quotes := by simp
    bare_quoted := by decide }
  have hline : spelling.line = " A=\t\"\"" := by decide
  have hother : other.line = " A=\t\"\"" := by decide
  obtain ⟨-, hentry, hunique⟩ := parse_iff_spelling " A=\t\"\""
  obtain ⟨hkey, hvalue⟩ := hunique spelling other hline hother
  exact ⟨spelling, other, by decide, hline, hother, hkey, hvalue,
    (hentry "A" "").mpr ⟨spelling, hline, rfl, rfl⟩⟩

end KconfigQuery.DotConfig.Line
