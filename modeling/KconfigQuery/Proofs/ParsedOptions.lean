import Mathlib.Data.List.Induction
import Mathlib.Data.Finset.Card
import KconfigQuery.Proofs.ReadAccounting

/-! # What the lines of a configuration set

A configuration is read line by line, and each line that is an entry is put into the table of
options.  So the place of a key is decided by the first line for it, and its value by the last one.
Both are told here by the lines alone, and proved along the lines from the first to the last.

* `tableOf_concat_entry`    what one more line does to the table
* `get?_tableOf`            the last line for a key gives the value
* `pairwise_keys_tableOf`   the keys stand in the order of their first lines
* `parse_by_lines`          what a parse answers, and the number that it tells -/

namespace KconfigQuery.DotConfig

/-! ## Lines for a key -/

/-- The value that a line gives to a key, if it gives one. -/
def Line.valueFor? (key : String) : Line → Option String
  | skip => none
  | entry other value => if other = key then some value else none

/-- The line is an entry for a key. -/
def Line.isFor (key : String) (line : Line) : Bool :=
  (line.valueFor? key).isSome

/-- The key of an entry line. -/
def Line.key? (line : Line) : Option String :=
  line.pair?.map Prod.fst

/-- A line gives a value to a key if it is the entry of both. -/
private theorem Line.valueFor?_eq_some_iff {line : Line} {key value : String} :
    line.valueFor? key = some value ↔ line = .entry key value := by
  cases line with
  | skip => simp [valueFor?]
  | entry other text =>
    by_cases h : other = key <;> simp [valueFor?, h]

/-- A line is for a key if it is an entry with some value. -/
private theorem Line.isFor_iff {line : Line} {key : String} :
    line.isFor key ↔ ∃ value, line = .entry key value := by
  rw [isFor, Option.isSome_iff_exists]
  exact exists_congr fun value => valueFor?_eq_some_iff

private theorem Line.isFor_eq_false_iff {line : Line} {key : String} :
    line.isFor key = false ↔ ∀ value, line ≠ .entry key value := by
  rw [← Bool.not_eq_true, isFor_iff, not_exists]

/-- How many lines stand before the first one for a key. -/
def firstLine (lines : List (List Char)) (key : String) : Nat :=
  lines.findIdx fun line => (Line.ofChars line).isFor key

/-- There is a first line for a key exactly if some line is an entry for it. -/
private theorem firstLine_lt_length_iff {lines : List (List Char)} {key : String} :
    firstLine lines key < lines.length ↔
      ∃ line ∈ lines, ∃ value, Line.ofChars line = .entry key value := by
  rw [firstLine, List.findIdx_lt_length]
  exact exists_congr fun line => and_congr_right' Line.isFor_iff

/-- More lines do not change which line is the first one for a key. -/
private theorem firstLine_append {lines : List (List Char)} {key : String}
    (h : firstLine lines key < lines.length) (more : List (List Char)) :
    firstLine (lines ++ more) key = firstLine lines key := by
  rw [firstLine, List.findIdx_append]
  exact if_pos h

/-! ## The table of some lines -/

/-- The options that lines set, from the first to the last. -/
def tableOf (lines : List (List Char)) : Options :=
  Table.ofList (lines.filterMap fun line => (Line.ofChars line).pair?)

private theorem options_eq_tableOf (content : String) :
    options content = tableOf (lines content) := rfl

/-- A line that is skipped changes nothing. -/
private theorem tableOf_concat_skip {line : List Char} (h : Line.ofChars line = .skip)
    (lines : List (List Char)) : tableOf (lines ++ [line]) = tableOf lines := by
  simp [tableOf, h, Line.pair?]

/-- A line that is an entry is put in. -/
theorem tableOf_concat_entry {line : List Char} {key value : String}
    (h : Line.ofChars line = .entry key value) (lines : List (List Char)) :
    tableOf (lines ++ [line]) = (tableOf lines).put key value := by
  simp [tableOf, h, Line.pair?, Table.ofList, Table.putAll]

/-- The keys are those of the entry lines. -/
theorem mem_keys_tableOf {lines : List (List Char)} {key : String} :
    key ∈ (tableOf lines).keys ↔
      ∃ line ∈ lines, ∃ value, Line.ofChars line = .entry key value := by
  have hpair : ∀ line value,
      (Line.ofChars line).pair? = some (key, value) ↔ Line.ofChars line = .entry key value := by
    intro line value
    cases Line.ofChars line <;> simp [Line.pair?]
  -- A key of the table is the key of some pair that was put in.
  have hkeys : key ∈ (lines.filterMap fun line => (Line.ofChars line).pair?).map Prod.fst ↔
      ∃ line ∈ lines, ∃ value, (Line.ofChars line).pair? = some (key, value) := by
    simp only [List.mem_map, List.mem_filterMap, Prod.exists, exists_and_right, exists_eq_right]
    exact ⟨fun ⟨value, line, hline, h⟩ => ⟨line, hline, value, h⟩,
      fun ⟨line, hline, value, h⟩ => ⟨value, line, hline, h⟩⟩
  rw [tableOf, Table.ofList, Table.mem_keys_putAll, hkeys]
  simp [hpair]

/-- Later lines come over earlier ones, so a value is looked for from the end. -/
theorem get?_tableOf (lines : List (List Char)) (key : String) :
    (tableOf lines).get? key =
      lines.reverse.findSome? fun line => (Line.ofChars line).valueFor? key := by
  induction lines using List.reverseRecOn with
  | nil => rfl
  | append_singleton lines line ih =>
    rw [List.reverse_append, List.reverse_singleton, List.singleton_append,
      List.findSome?_cons, ← ih]
    -- The last line decides on its key, and the lines before it on all others.
    cases hline : Line.ofChars line with
    | skip => rw [tableOf_concat_skip hline]; rfl
    | entry other value =>
      rw [tableOf_concat_entry hline, Table.get?_put]
      by_cases hkey : key = other
      · simp [Line.valueFor?, hkey]
      · simp [Line.valueFor?, hkey, Ne.symm hkey]

/-- The value of a key is that of the last line for it. -/
private theorem get?_tableOf_eq_some_iff {lines : List (List Char)} {key value : String} :
    (tableOf lines).get? key = some value ↔
      ∃ before line after, lines = before ++ line :: after ∧
        Line.ofChars line = .entry key value ∧
        ∀ later ∈ after, ∀ other, Line.ofChars later ≠ .entry key other := by
  have hnone : ∀ line, (Line.ofChars line).valueFor? key = none ↔
      ∀ other, Line.ofChars line ≠ .entry key other := by
    intro line
    rw [← Line.isFor_eq_false_iff, Line.isFor, Option.isSome_eq_false_iff,
      Option.isNone_iff_eq_none]
  rw [get?_tableOf, List.findSome?_eq_some_iff]
  -- What is before a line from the one end is after it from the other.
  constructor
  · rintro ⟨after, line, before, hlines, hvalue, hafter⟩
    refine ⟨before.reverse, line, after.reverse, ?_, Line.valueFor?_eq_some_iff.mp hvalue, ?_⟩
    · rw [← List.reverse_reverse lines, hlines]
      simp
    · intro later hlater
      exact (hnone later).mp (hafter later (List.mem_reverse.mp hlater))
  · rintro ⟨before, line, after, rfl, hvalue, hafter⟩
    refine ⟨after.reverse, line, before.reverse, by simp, Line.valueFor?_eq_some_iff.mpr hvalue, ?_⟩
    intro later hlater
    exact (hnone later).mpr (hafter later (List.mem_reverse.mp hlater))

/-- The keys stand in the order of the first lines for them. -/
theorem pairwise_keys_tableOf (lines : List (List Char)) :
    (tableOf lines).keys.Pairwise fun key other => firstLine lines key < firstLine lines other := by
  induction lines using List.reverseRecOn with
  | nil => simp [tableOf, Table.ofList, Table.putAll]
  | append_singleton lines line ih =>
    have hfirst : ∀ key ∈ (tableOf lines).keys,
        firstLine lines key < lines.length ∧
          firstLine (lines ++ [line]) key = firstLine lines key := by
      intro key hkey
      have hlt := firstLine_lt_length_iff.mpr (mem_keys_tableOf.mp hkey)
      exact ⟨hlt, firstLine_append hlt [line]⟩
    -- The keys that were there keep their first lines.
    have hold : (tableOf lines).keys.Pairwise fun key other =>
        firstLine (lines ++ [line]) key < firstLine (lines ++ [line]) other := by
      refine ih.imp_of_mem fun {key other} hkey hother hlt => ?_
      rwa [(hfirst key hkey).2, (hfirst other hother).2]
    cases hline : Line.ofChars line with
    | skip => rwa [tableOf_concat_skip hline]
    | entry new value =>
      rw [tableOf_concat_entry hline, Table.keys_put]
      split
      · exact hold
      · next hnew =>
        -- A new key has its first line after all others.
        have hlast : firstLine (lines ++ [line]) new = lines.length := by
          have hnone : ¬firstLine lines new < lines.length := fun hlt =>
            hnew (mem_keys_tableOf.mpr (firstLine_lt_length_iff.mp hlt))
          have hfor : (Line.ofChars line).isFor new := Line.isFor_iff.mpr ⟨value, hline⟩
          rw [firstLine] at hnone
          rw [firstLine, List.findIdx_append, if_neg hnone, List.findIdx_cons, hfor]
          simp
        refine List.pairwise_append.mpr ⟨hold, List.pairwise_singleton _ _, ?_⟩
        intro key hkey other hother
        obtain rfl := List.mem_singleton.mp hother
        rw [hlast, (hfirst key hkey).2]
        exact (hfirst key hkey).1

/-- There are as many options as different keys. -/
private theorem size_tableOf (lines : List (List Char)) :
    (tableOf lines).size =
      (lines.filterMap fun line => (Line.ofChars line).key?).toFinset.card := by
  rw [tableOf, Table.size_ofList, List.card_toFinset, List.map_filterMap]
  rfl

/-! ## Parsing -/

/-- What a parse makes of a file that can be read.  The lines are what stands between line feeds.  A
    key is set exactly if some line is an entry for it, and it has the value of the last such line.
    The keys are distinct and stand in the order of the first lines for them.  One message tells how
    many different keys the entry lines have. -/
theorem parse_by_lines (files : FileSystem) (store : Store) (dir : String) {content : String}
    (h : files.contents (Path.join [dir, ".config"]) = .ok content) :
    let reply := store.parse files dir
    let parsed := reply.answer
    let lines := lines content
    (Text.joinPieces '\n' lines = content.toList ∧ ∀ line ∈ lines, '\n' ∉ line) ∧
      (∀ key, key ∈ parsed.keys ↔
        ∃ line ∈ lines, ∃ value, Line.ofChars line = .entry key value) ∧
      (∀ key value, parsed.get? key = some value ↔
        ∃ before line after, lines = before ++ line :: after ∧
          Line.ofChars line = .entry key value ∧
          ∀ later ∈ after, ∀ other, Line.ofChars later ≠ .entry key other) ∧
      parsed.keys.Nodup ∧
      (parsed.keys.Pairwise fun key other => firstLine lines key < firstLine lines other) ∧
      reply.events = [.read (Path.join [dir, ".config"]),
        .log ⟨.debug, "Parsed " ++
          toString (lines.filterMap fun line => (Line.ofChars line).key?).toFinset.card ++
          " options from " ++ Path.join [dir, ".config"]⟩] := by
  intro reply parsed lines
  have hfile : files.contents (file dir) = .ok content := h
  have hparsed : parsed = tableOf lines := by
    simp [parsed, reply, Store.parse, Store.load_eq, Store.current, hfile, lines,
      options_eq_tableOf]
  have hevents : reply.events = [.read (file dir),
      .log ⟨.debug, Store.parsedMessage (file dir) (tableOf lines)⟩] := by
    simp [reply, Store.parse, Store.load_eq, Store.readingEvents, Store.readingEntry, hfile, lines,
      options_eq_tableOf]
  refine ⟨⟨Text.joinPieces_pieces _ _, fun line => Text.notMem_of_mem_pieces⟩, ?_, ?_,
    parsed.nodup_keys, ?_, ?_⟩
  · intro key
    rw [hparsed, mem_keys_tableOf]
  · intro key value
    rw [hparsed, get?_tableOf_eq_some_iff]
  · rw [hparsed]
    exact pairwise_keys_tableOf lines
  · rw [hevents, Store.parsedMessage, size_tableOf]
    rfl

/-- A key that is set twice keeps its place before the other one and has the value given last. -/
theorem parse_by_lines_repeated :
    let content := "B=1\nA=y\n# C is not set\nB=\"2\""
    let files : FileSystem := {
      contents := fun _ => .ok content
      listDirectory := fun _ => .ok []
      isFile := fun _ => true
      isDirectory := fun _ => false
      isSymbolicLink := fun _ => false }
    files.contents (Path.join ["/k", ".config"]) = .ok content ∧
      (Store.empty.parse files "/k").answer.get? "B" = some "2" ∧
      (Store.empty.parse files "/k").events = [.read "/k/.config",
        .log ⟨.debug, "Parsed 2 options from /k/.config"⟩] := by
  intro content files
  obtain ⟨-, -, hvalue, -, -, hevents⟩ := parse_by_lines files .empty "/k"
    (rfl : files.contents (Path.join ["/k", ".config"]) = .ok content)
  refine ⟨rfl, ?_, ?_⟩
  · refine (hvalue "B" "2").mpr
      ⟨["B=1".toList, "A=y".toList, "# C is not set".toList], "B=\"2\"".toList, [], ?_, ?_, ?_⟩
    · decide +kernel
    · decide +kernel
    · simp
  · rw [hevents]
    decide +kernel

end KconfigQuery.DotConfig
