import Mathlib.Data.List.Basic
import KconfigQuery.Proofs.InquirySteps

/-! # Reading a listing as a configuration

The listing of all options is itself the text of a configuration.  It is written without quotes, so
a value that had blanks just inside its quotes loses them when the listing is read.  Nothing else
can change: a key has neither blanks at its ends nor an equals sign, no key and no value goes
over the end of its line, and no value has quotes at its ends.

* `tidy_of_mem_options`     what holds of every option that a text sets
* `entries_render`          a listing is read line by line
* `options_listing_iff`     which listings give the configuration back -/

namespace KconfigQuery.DotConfig

/-! ## What a text can set -/

/-- What holds of every option that a text sets. -/
structure Tidy (entry : String × String) : Prop where
  bare_key : Text.BareEnds Text.isBlank entry.1.toList
  bare_value : Text.BareEnds (· == '"') entry.2.toList
  no_equals : '=' ∉ entry.1.toList
  key_in_line : '\n' ∉ entry.1.toList
  value_in_line : '\n' ∉ entry.2.toList

/-- The line behind an entry: what stands on the two sides of its first equals sign. -/
private theorem exists_line_of_mem_entries {content : String} {entry : String × String}
    (h : entry ∈ entries content) :
    ∃ left right, left ++ '=' :: right ∈ lines content ∧ '=' ∉ left ∧
      entry.1.toList = Text.trim left ∧ entry.2.toList = Line.unquote (Text.trim right) := by
  obtain ⟨line, hline, hpair⟩ := List.mem_filterMap.mp h
  have hentry : Line.ofChars line = .entry entry.1 entry.2 := by
    cases hl : Line.ofChars line with
    | skip => simp [hl, Line.pair?] at hpair
    | entry key value =>
      simp only [hl, Line.pair?, Option.some.injEq] at hpair
      rw [← hpair]
  obtain ⟨left, right, hleft, hcs, hkey, hvalue⟩ := Line.exists_of_ofChars_eq_entry hentry
  exact ⟨left, right, hcs ▸ hline, hleft, hkey, hvalue⟩

/-- Every entry of a file is tidy. -/
private theorem tidy_of_mem_entries {content : String} {entry : String × String}
    (h : entry ∈ entries content) : Tidy entry := by
  obtain ⟨left, right, hline, hleft, hkey, hvalue⟩ := exists_line_of_mem_entries h
  -- A line has no line end in it, and stripping brings nothing in.
  have hend : '\n' ∉ left ++ '=' :: right := Text.notMem_of_mem_pieces hline
  simp only [List.mem_append, List.mem_cons, not_or] at hend
  obtain ⟨hleftend, -, hrightend⟩ := hend
  constructor
  · rw [hkey]; exact Text.bare_stripEnds _ left
  · rw [hvalue]; exact Text.bare_stripEnds _ (Text.trim right)
  · rw [hkey]; exact fun hmem => hleft (Text.mem_of_mem_stripEnds hmem)
  · rw [hkey]; exact fun hmem => hleftend (Text.mem_of_mem_stripEnds hmem)
  · rw [hvalue]
    exact fun hmem => hrightend (Text.mem_of_mem_stripEnds (Text.mem_of_mem_stripEnds hmem))

/-- Every option of a file is tidy. -/
theorem tidy_of_mem_options {content : String} {entry : String × String}
    (h : entry ∈ (options content).entries) : Tidy entry :=
  tidy_of_mem_entries (Table.mem_of_mem_ofList h)

/-! ## Reading what was written -/

/-- The value that is read where a value was written as it is. -/
def reread (value : String) : String :=
  String.ofList (Line.unquote (Text.trim value.toList))

/-- Blanks at the ends are all that a value can lose. -/
private theorem reread_eq_self_iff {value : String} (h : Text.BareEnds (· == '"') value.toList) :
    reread value = value ↔ Text.BareEnds Text.isBlank value.toList := by
  unfold reread
  constructor
  · intro hread
    have hchars := congrArg String.toList hread
    rw [String.toList_ofList] at hchars
    -- Neither of the two strippings can have taken anything away.
    have hlength : (Line.unquote (Text.trim value.toList)).length ≤
        (Text.trim value.toList).length := Text.length_stripEnds_le _ _
    rw [hchars] at hlength
    exact Text.bare_of_length_stripEnds hlength
  · intro hbare
    have htrim : Text.trim value.toList = value.toList := Text.stripEnds_of_bare hbare
    have hunquote : Line.unquote value.toList = value.toList := Text.stripEnds_of_bare h
    rw [htrim, hunquote, String.ofList_toList]

theorem toList_renderEntry (entry : String × String) :
    (renderEntry entry).toList = entry.1.toList ++ '=' :: entry.2.toList := by
  simp [renderEntry]

/-- A listed line is read as its key, with the value as it is read back. -/
private theorem ofChars_renderEntry {entry : String × String} (h : Tidy entry) :
    Line.ofChars (renderEntry entry).toList = .entry entry.1 (reread entry.2) := by
  -- The first equals sign of the line is the one after the key.
  have hcut := Text.cut?_append h.no_equals entry.2.toList
  have hkey : Text.trim entry.1.toList = entry.1.toList := Text.stripEnds_of_bare h.bare_key
  simp [toList_renderEntry, Line.ofChars, hcut, hkey, reread]

/-- An entry is listed on one line. -/
theorem notMem_newline_renderEntry {entry : String × String} (h : Tidy entry) :
    '\n' ∉ (renderEntry entry).toList := by
  rw [toList_renderEntry]
  simp [h.key_in_line, h.value_in_line]

/-- A listing has a line for each entry, and an empty one after the last line end. -/
private theorem lines_render {parsed : Options} (h : ∀ entry ∈ parsed.entries, Tidy entry) :
    lines (render parsed) =
      parsed.entries.map (fun entry => (renderEntry entry).toList) ++ [[]] := by
  have hends : ∀ line ∈ parsed.entries.map renderEntry, '\n' ∉ line.toList := by
    intro line hline
    obtain ⟨entry, hentry, rfl⟩ := List.mem_map.mp hline
    exact notMem_newline_renderEntry (h entry hentry)
  have htext := Text.pieces_join_lines hends
  rw [List.map_map, List.map_map] at htext
  exact htext

/-- A listing is read line by line, and the keys stay as they are. -/
theorem entries_render {parsed : Options} (h : ∀ entry ∈ parsed.entries, Tidy entry) :
    entries (render parsed) = parsed.entries.map fun entry => (entry.1, reread entry.2) := by
  have hline : ∀ entry ∈ parsed.entries,
      (Line.ofChars (renderEntry entry).toList).pair? = some (entry.1, reread entry.2) := by
    intro entry hentry
    rw [ofChars_renderEntry (h entry hentry)]
    rfl
  -- The empty line at the end is skipped.
  have hlast : (Line.ofChars []).pair? = none := rfl
  rw [entries, lines_render h, List.filterMap_append, List.filterMap_map]
  simp only [List.filterMap_cons, hlast, List.filterMap_nil, List.append_nil]
  rw [← List.filterMap_eq_map]
  exact List.filterMap_congr hline

/-- A listing is read as the same options exactly if no value has blanks at its ends. -/
private theorem options_render_eq_iff {parsed : Options}
    (h : ∀ entry ∈ parsed.entries, Tidy entry) :
    options (render parsed) = parsed ↔
      ∀ value ∈ parsed.values, Text.BareEnds Text.isBlank value.toList := by
  -- The keys are distinct as they were, so no entry comes over another.
  have hentries : (options (render parsed)).entries =
      parsed.entries.map fun entry => (entry.1, reread entry.2) := by
    rw [options, entries_render h]
    refine Table.entries_ofList_of_nodup ?_
    rw [List.map_map]
    exact parsed.distinct
  -- So the tables are the same if every value is read back as it was.
  have hsame : options (render parsed) = parsed ↔
      ∀ entry ∈ parsed.entries, reread entry.2 = entry.2 := by
    constructor
    · intro heq entry hentry
      rw [heq] at hentries
      have hid := List.map_inj_left.mp ((List.map_id _).trans hentries) entry hentry
      exact (congrArg Prod.snd hid).symm
    · intro hall
      refine Table.ext (hentries.trans ?_)
      refine (List.map_inj_left.mpr fun entry hentry => ?_).trans (List.map_id _)
      rw [hall entry hentry]
      rfl
  rw [hsame]
  constructor
  · intro hall value hvalue
    obtain ⟨entry, hentry, rfl⟩ := List.mem_map.mp hvalue
    exact (reread_eq_self_iff (h entry hentry).bare_value).mp (hall entry hentry)
  · intro hall entry hentry
    exact (reread_eq_self_iff (h entry hentry).bare_value).mpr
      (hall entry.2 (List.mem_map_of_mem hentry))

/-! ## Blanks inside quotes -/

/-- Blanks at an end of a value stood inside quotes: those at the start after an opening quote,
    those at the end before a closing one. -/
def InsideQuotes (value written : List Char) : Prop :=
  ∃ opening closing, (∀ c ∈ opening, c = '"') ∧ (∀ c ∈ closing, c = '"') ∧
    written = opening ++ value ++ closing ∧
    ((∃ c ∈ value.head?, Text.isBlank c) → opening ≠ []) ∧
    ((∃ c ∈ value.getLast?, Text.isBlank c) → closing ≠ [])

/-- What is left without quotes has its blanks inside them. -/
private theorem insideQuotes_of_unquote {written : List Char}
    (h : Text.BareEnds Text.isBlank written) :
    InsideQuotes (Line.unquote written) written := by
  obtain ⟨opening, closing, hopening, hclosing, hwritten⟩ :=
    Text.exists_stripEnds (· == '"') written
  have hvalue : written = opening ++ Line.unquote written ++ closing := hwritten
  refine ⟨opening, closing, fun c hc => by simpa using hopening c hc,
    fun c hc => by simpa using hclosing c hc, hvalue, ?_, ?_⟩
  · rintro ⟨c, hc, hblank⟩ rfl
    -- Without an opening quote the written text would start with the blank.
    have hhead : c ∈ written.head? := by
      rw [hvalue, List.nil_append]
      exact List.mem_head?_append_of_mem_head? hc
    rw [h.1 c hhead] at hblank
    cases hblank
  · rintro ⟨c, hc, hblank⟩ rfl
    -- Neither could it end with the blank without a closing one.
    have hlast : c ∈ written.getLast? := by
      rw [hvalue, List.append_nil]
      exact List.mem_getLast?_append_of_mem_getLast? hc
    rw [h.2 c hlast] at hblank
    cases hblank

/-! ## The listing -/

theorem listed_all (options : Options) : Inquiry.listed ⟨false, ""⟩ options = options.entries := by
  simp [Inquiry.listed, Inquiry.ListFilter.admits]

/-- The whole listing is the text of the options. -/
private theorem stdout_list (context : Inquiry.Context) :
    Output.stdout (Inquiry.answer context (.list ⟨false, ""⟩)).1 =
      render (Store.current context.files context.session.kernelDir) := by
  rw [Inquiry.answer_eq, Inquiry.stdout_seen, Inquiry.steps, Inquiry.printed_append,
    Inquiry.printed_inStore, String.empty_append, Inquiry.printed_lines, listed_all]
  rfl

/-- The listing of all options is read as the configuration that it lists exactly when no value has
    blanks at its ends, and such blanks can only come from inside the quotes of the value. -/
theorem options_listing_iff (context : Inquiry.Context) {content : String}
    (h : context.files.contents (file context.session.kernelDir) = .ok content) :
    let parsed := options content
    let listing := Output.stdout (Inquiry.answer context (.list ⟨false, ""⟩)).1
    listing = String.join (parsed.entries.map fun entry => entry.1 ++ "=" ++ entry.2 ++ "\n") ∧
      (options listing = parsed ↔
        ∀ value ∈ parsed.values, Text.BareEnds Text.isBlank value.toList) ∧
      ∀ entry ∈ parsed.entries, ∃ left right,
        left ++ '=' :: right ∈ lines content ∧ '=' ∉ left ∧ entry.1.toList = Text.trim left ∧
          InsideQuotes entry.2.toList (Text.trim right) := by
  have hcurrent : Store.current context.files context.session.kernelDir = options content := by
    simp [Store.current, h]
  intro parsed listing
  -- What is listed is what is current, and that is what the file gives.
  have hlisting : listing = render parsed := by
    have hlist := stdout_list context
    rwa [hcurrent] at hlist
  refine ⟨hlisting, ?_, ?_⟩
  · rw [hlisting]
    exact options_render_eq_iff fun entry hentry => tidy_of_mem_options hentry
  · intro entry hentry
    obtain ⟨left, right, hline, hleft, hkey, hvalue⟩ :=
      exists_line_of_mem_entries (Table.mem_of_mem_ofList hentry)
    refine ⟨left, right, hline, hleft, hkey, ?_⟩
    rw [hvalue]
    exact insideQuotes_of_unquote (Text.bare_stripEnds _ right)

/-- A blank inside the quotes is lost. -/
theorem options_listing_inner_blank :
    let content := "A=\" y\"\nB=m"
    let files : FileSystem := {
      contents := fun _ => .ok content
      listDirectory := fun _ => .ok []
      isFile := fun _ => true
      isDirectory := fun _ => false
      isSymbolicLink := fun _ => false }
    let context : Inquiry.Context := ⟨.plain, files, "/k", .console false⟩
    context.files.contents (file context.session.kernelDir) = .ok content ∧
      options (Output.stdout (Inquiry.answer context (.list ⟨false, ""⟩)).1) ≠ options content := by
  intro content files context
  refine ⟨rfl, fun hread => ?_⟩
  have hbare := (options_listing_iff context rfl).2.1.mp hread " y" (by decide)
  exact absurd hbare (by decide)

end KconfigQuery.DotConfig
