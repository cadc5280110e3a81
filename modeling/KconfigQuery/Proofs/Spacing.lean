import KconfigQuery.Proofs.StoreQueries

/-! # Line ends, byte order mark and blanks

A configuration can come with line ends of two characters, with a byte order mark in front, or with
blanks around its keys and values.  All of these are blanks at places where a line is trimmed, since
a line ends at its line feed only, and lines are trimmed before their quotes are taken off.  So none
of these edits changes an option, and none makes an entry, takes one away or joins two.

* `ofChars_line`             blanks at the four places of a line do not count
* `options_eq_of_lines`      lines that say the same set the same options
* `parse_respelt`            what a parse makes of an edited file -/

namespace KconfigQuery.DotConfig

/-! ## One line -/

/-- Blanks to be added to a line: at its ends, and before and after its first equals sign.  None of
    them ends the line. -/
structure Spacing where
  start : List Char
  beforeEquals : List Char
  afterEquals : List Char
  finish : List Char
  blank : ∀ c ∈ start ++ beforeEquals ++ afterEquals ++ finish, Text.isBlank c = true ∧ c ≠ '\n'

namespace Spacing

/-- The line with the blanks added.  A line without an equals sign gets them at its ends only. -/
def line (spacing : Spacing) (cs : List Char) : List Char :=
  match Text.cut? '=' cs with
  | none => spacing.start ++ cs ++ spacing.finish
  | some (left, right) =>
    (spacing.start ++ left ++ spacing.beforeEquals) ++
      '=' :: (spacing.afterEquals ++ right ++ spacing.finish)

/-- Blanks at the ends only. -/
def atEnds (start finish : List Char)
    (h : ∀ c ∈ start ++ finish, Text.isBlank c = true ∧ c ≠ '\n') : Spacing where
  start
  beforeEquals := []
  afterEquals := []
  finish
  blank := by simpa using h

variable (spacing : Spacing)

/-- What is added has neither equals signs nor line ends. -/
private theorem notMem_of_not_blank {c : Char} (h : Text.isBlank c = false ∨ c = '\n') :
    c ∉ spacing.start ∧ c ∉ spacing.beforeEquals ∧ c ∉ spacing.afterEquals ∧
      c ∉ spacing.finish := by
  -- All that is added is blank and is no line feed.
  have hnot : c ∉ spacing.start ++ spacing.beforeEquals ++ spacing.afterEquals ++
      spacing.finish := by
    intro hmem
    obtain ⟨hblank, hend⟩ := spacing.blank c hmem
    rcases h with h | h
    · rw [h] at hblank
      cases hblank
    · exact hend h
  simpa only [List.mem_append, not_or, and_assoc] using hnot

private theorem line_of_notMem {cs : List Char} (h : '=' ∉ cs) :
    spacing.line cs = spacing.start ++ cs ++ spacing.finish := by
  simp only [line, Text.cut?_eq_none_iff.mpr h]

private theorem line_of_cut {left : List Char} (h : '=' ∉ left) (right : List Char) :
    spacing.line (left ++ '=' :: right) =
      (spacing.start ++ left ++ spacing.beforeEquals) ++
        '=' :: (spacing.afterEquals ++ right ++ spacing.finish) := by
  simp only [line, Text.cut?_append h]

/-- Blanks at the ends are put at the ends of any line. -/
private theorem line_atEnds {start finish : List Char}
    (h : ∀ c ∈ start ++ finish, Text.isBlank c = true ∧ c ≠ '\n') (cs : List Char) :
    (atEnds start finish h).line cs = start ++ cs ++ finish := by
  cases hcut : Text.cut? '=' cs with
  | none => exact line_of_notMem _ (Text.cut?_eq_none_iff.mp hcut)
  | some sides =>
    obtain ⟨left, right⟩ := sides
    obtain ⟨rfl, hleft⟩ := Text.cut?_eq_some_iff.mp hcut
    rw [line_of_cut _ hleft]
    simp [atEnds]

/-- The added blanks are trimmed off, and the line says what it said before. -/
theorem ofChars_line (cs : List Char) : Line.ofChars (spacing.line cs) = Line.ofChars cs := by
  have hequals : Text.isBlank '=' = false := by decide
  obtain ⟨hstart, hbefore, hafter, hfinish⟩ := spacing.notMem_of_not_blank (.inl hequals)
  cases hcut : Text.cut? '=' cs with
  | none =>
    -- No equals sign comes in, so the line is skipped as before.
    have hnone : '=' ∉ cs := Text.cut?_eq_none_iff.mp hcut
    have hline : '=' ∉ spacing.line cs := by
      rw [spacing.line_of_notMem hnone]
      simp [hstart, hnone, hfinish]
    rw [Line.ofChars_eq_skip_iff.mpr hnone, Line.ofChars_eq_skip_iff.mpr hline]
  | some sides =>
    -- The first equals sign is the one it was, and each side is trimmed.
    obtain ⟨left, right⟩ := sides
    obtain ⟨rfl, hleft⟩ := Text.cut?_eq_some_iff.mp hcut
    have hleft' : '=' ∉ spacing.start ++ left ++ spacing.beforeEquals := by
      simp [hstart, hleft, hbefore]
    have hblank : ∀ c ∈ spacing.start ++ spacing.beforeEquals ++ spacing.afterEquals ++
        spacing.finish, Text.isBlank c = true := fun c hc => (spacing.blank c hc).1
    simp only [List.forall_mem_append] at hblank
    obtain ⟨⟨⟨hs, hb⟩, ha⟩, hf⟩ := hblank
    have htrimLeft : Text.trim (spacing.start ++ left ++ spacing.beforeEquals) = Text.trim left :=
      Text.stripEnds_around hs hb left
    have htrimRight : Text.trim (spacing.afterEquals ++ right ++ spacing.finish) =
        Text.trim right := Text.stripEnds_around ha hf right
    rw [spacing.line_of_cut hleft]
    simp only [Line.ofChars, Text.cut?_append hleft', Text.cut?_append hleft, htrimLeft,
      htrimRight]

/-- A line does not go over its end. -/
private theorem newline_notMem_line {cs : List Char} (h : '\n' ∉ cs) : '\n' ∉ spacing.line cs := by
  obtain ⟨hstart, hbefore, hafter, hfinish⟩ := spacing.notMem_of_not_blank (.inr rfl)
  cases hcut : Text.cut? '=' cs with
  | none =>
    rw [spacing.line_of_notMem (Text.cut?_eq_none_iff.mp hcut)]
    simp [hstart, h, hfinish]
  | some sides =>
    obtain ⟨left, right⟩ := sides
    obtain ⟨rfl, hleft⟩ := Text.cut?_eq_some_iff.mp hcut
    simp only [List.mem_append, List.mem_cons, not_or] at h
    rw [spacing.line_of_cut hleft]
    simp [hstart, h.1, hbefore, hafter, h.2.2, hfinish]

end Spacing

/-! ## Texts -/

/-- Lines that say the same set the same options in the same order. -/
theorem options_eq_of_lines {content edited : String}
    (h : (lines edited).map Line.ofChars = (lines content).map Line.ofChars) :
    options edited = options content := by
  have hentries : ∀ text : String,
      entries text = ((lines text).map Line.ofChars).filterMap Line.pair? := by
    intro text
    rw [entries, List.filterMap_map]
    rfl
  rw [options, options, hentries, hentries, h]

/-- The characters with a carriage return before every line feed. -/
def addReturns (cs : List Char) : List Char :=
  cs.flatMap fun c => if c = '\n' then ['\r', '\n'] else [c]

/-- The text with a carriage return before every line feed. -/
def withReturns (content : String) : String :=
  String.ofList (addReturns content.toList)

/-- The text with blanks added to its lines, for each line those that are chosen for its number. -/
def respaced (spacing : Nat → Spacing) (content : String) : String :=
  String.ofList (Text.joinPieces '\n' ((lines content).mapIdx fun i cs => (spacing i).line cs))

/-- The lines of a text with blanks added are its lines with blanks added. -/
private theorem lines_respaced (spacing : Nat → Spacing) (content : String) :
    lines (respaced spacing content) =
      (lines content).mapIdx fun i cs => (spacing i).line cs := by
  have hne : (lines content).mapIdx (fun i cs => (spacing i).line cs) ≠ [] := by
    simpa [lines] using Text.pieces_ne_nil '\n' content.toList
  -- No line gets a line feed, so the lines stay apart when they are joined.
  have hends : ∀ cs ∈ (lines content).mapIdx fun i cs => (spacing i).line cs, '\n' ∉ cs := by
    intro edited hmem
    obtain ⟨i, hi, rfl⟩ := List.mem_mapIdx.mp hmem
    exact (spacing i).newline_notMem_line (Text.notMem_of_mem_pieces (List.getElem_mem hi))
  rw [lines, respaced, String.toList_ofList, Text.pieces_joinPieces hne hends]

/-- Blanks at the places that are trimmed change no option. -/
private theorem options_respaced (spacing : Nat → Spacing) (content : String) :
    options (respaced spacing content) = options content := by
  apply options_eq_of_lines
  rw [lines_respaced]
  apply List.ext_getElem
  · simp
  · intro i hi _
    simp [(spacing i).ofChars_line]

/-- A byte order mark stands at the start of the first line. -/
private theorem options_mark (content : String) :
    options ("\uFEFF" ++ content) = options content := by
  -- The mark is a blank like others, at the start of one line.
  let mark := Spacing.atEnds ['\uFEFF'] [] (by simp [Text.isBlank])
  apply options_eq_of_lines
  cases hlines : Text.pieces '\n' content.toList with
  | nil => exact absurd hlines (Text.pieces_ne_nil _ _)
  | cons first rest =>
    have hmark : lines ("\uFEFF" ++ content) = ('\uFEFF' :: first) :: rest := by
      simp [lines, Text.pieces, hlines]
    have hfirst : mark.line first = '\uFEFF' :: first := by
      rw [Spacing.line_atEnds]
      simp
    rw [hmark, lines, hlines, List.map_cons, List.map_cons, ← hfirst, mark.ofChars_line]

/-- No carriage return is put into characters without a line feed. -/
private theorem addReturns_of_notMem {cs : List Char} (h : '\n' ∉ cs) : addReturns cs = cs := by
  induction cs with
  | nil => rfl
  | cons c cs ih =>
    simp only [List.mem_cons, not_or] at h
    have hrest : addReturns (c :: cs) = c :: addReturns cs := by simp [addReturns, Ne.symm h.1]
    rw [hrest, ih h.2]

/-- Up to a line feed, characters get their carriage returns by themselves, and one more before it.
    -/
private theorem addReturns_append_newline (cs ds : List Char) :
    addReturns (cs ++ '\n' :: ds) = (addReturns cs ++ ['\r']) ++ '\n' :: addReturns ds := by
  simp [addReturns]

/-- A carriage return stands at the end of each line but the last. -/
private theorem ofChars_pieces_addReturns {ps : List (List Char)} (hne : ps ≠ [])
    (h : ∀ p ∈ ps, '\n' ∉ p) :
    (Text.pieces '\n' (addReturns (Text.joinPieces '\n' ps))).map Line.ofChars =
      ps.map Line.ofChars := by
  let returned := Spacing.atEnds [] ['\r'] (by simp [Text.isBlank])
  induction ps with
  | nil => exact absurd rfl hne
  | cons p ps ih =>
    have hp := h p List.mem_cons_self
    -- The last line has no line feed after it, so nothing is put at its end.
    by_cases hps : ps = []
    · subst hps
      rw [Text.joinPieces, addReturns_of_notMem hp, Text.pieces_of_notMem hp]
    · have hline : returned.line p = p ++ ['\r'] := by
        rw [Spacing.line_atEnds]
        rfl
      have hend : '\n' ∉ returned.line p := returned.newline_notMem_line hp
      have hrest := ih hps fun q hq => h q (List.mem_cons_of_mem _ hq)
      rw [Text.joinPieces_cons hps, addReturns_append_newline, addReturns_of_notMem hp, ← hline,
        Text.pieces_append, Text.pieces_of_notMem hend, List.map_append, hrest]
      simp [returned.ofChars_line]

/-- Line ends of two characters change no option. -/
private theorem options_withReturns (content : String) :
    options (withReturns content) = options content := by
  apply options_eq_of_lines
  have hlines := ofChars_pieces_addReturns (Text.pieces_ne_nil '\n' content.toList)
    fun p => Text.notMem_of_mem_pieces
  rw [Text.joinPieces_pieces] at hlines
  rw [lines, lines, withReturns, String.toList_ofList, hlines]

/-! ## Parsing -/

/-- Edits of line ends, byte order mark and blanks. -/
inductive Respelt (content : String) : String → Prop
  | lineEnds : Respelt content (withReturns content)
  | mark : Respelt content ("\uFEFF" ++ content)
  | blanks (spacing : Nat → Spacing) : Respelt content (respaced spacing content)

/-- No edit changes an option. -/
private theorem Respelt.options_eq {content edited : String} (h : Respelt content edited) :
    options edited = options content := by
  cases h with
  | lineEnds => exact options_withReturns content
  | mark => exact options_mark content
  | blanks spacing => exact options_respaced spacing content

/-- A file is parsed alike before and after its line ends are changed, a byte order mark is put in
    front, or blanks are added at the ends and around the first equals sign of any of its lines: the
    options are the same in the same order, and so is the message about them. -/
theorem parse_respelt (files editedFiles : FileSystem) (store : Store) (dir : String)
    {content edited : String}
    (h : files.contents (Path.join [dir, ".config"]) = .ok content)
    (hedited : editedFiles.contents (Path.join [dir, ".config"]) = .ok edited)
    (hrespelt : Respelt content edited) :
    store.parse editedFiles dir = store.parse files dir := by
  rw [store.parse_of_contents h, store.parse_of_contents hedited, hrespelt.options_eq]

/-- Blanks are added in each of the four places of a line, and none to the others. -/
theorem parse_respelt_all_places :
    let content := "# C is not set\nA=\" y=\"\nB=1"
    let edited := "# C is not set\n\uFEFFA =\t\u00A0\" y=\"\r\nB=1"
    let holding := fun text => ({
      contents := fun _ => .ok text
      listDirectory := fun _ => .ok []
      isFile := fun _ => true
      isDirectory := fun _ => false
      isSymbolicLink := fun _ => false } : FileSystem)
    (holding content).contents (Path.join ["/k", ".config"]) = .ok content ∧
      (holding edited).contents (Path.join ["/k", ".config"]) = .ok edited ∧
      Respelt content edited ∧
      (Store.empty.parse (holding edited) "/k").answer.entries = [("A", " y="), ("B", "1")] := by
  intro content edited holding
  let spacing : Spacing := ⟨['\uFEFF'], [' '], ['\t', '\u00A0'], ['\r'], by simp [Text.isBlank]⟩
  let bare : Spacing := .atEnds [] [] (by simp)
  have hedited : respaced (fun i => if i = 1 then spacing else bare) content = edited := by
    decide +kernel
  have hrespelt : Respelt content edited := hedited ▸ .blanks _
  refine ⟨rfl, rfl, hrespelt, ?_⟩
  rw [parse_respelt (holding content) (holding edited) .empty "/k" rfl rfl hrespelt]
  decide +kernel

end KconfigQuery.DotConfig
