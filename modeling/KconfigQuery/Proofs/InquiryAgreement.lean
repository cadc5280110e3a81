import Mathlib.Data.List.Nodup
import KconfigQuery.Proofs.InquiryOutcomes
import KconfigQuery.Proofs.Listing
import KconfigQuery.Proofs.ParsedOptions

/-! # The inquiries agree

All inquiries tell of the same table of options, each in its own way.  The listing shows the whole
of it: a printed line gives its key and its value back, because no key has an equals sign in it.  So
what every other inquiry says can be told from the lines of the listing.

* `lines_list`               what a listing prints, line by line
* `linesOf_eq_filter`        a shorter listing is made of lines of the longer one
* `get?_eq_some_iff_line`    a value is told by the line that is listed for it
* `inquiries_agree`          all inquiries, in one session -/

namespace KconfigQuery

/-! ## Printed lines -/

/-- The lines of a printed text, each of them ended by a line feed. -/
def Output.lines (text : String) : List String :=
  (Text.pieces '\n' text.toList).dropLast.map String.ofList

/-- Lines without line feeds are given back by the text that they are printed as. -/
private theorem Output.lines_join {lines : List String} (h : ∀ line ∈ lines, '\n' ∉ line.toList) :
    Output.lines (String.join (lines.map fun line => line ++ "\n")) = lines := by
  rw [Output.lines, Text.pieces_join_lines h, List.dropLast_concat, List.map_map]
  simp [Function.comp_def]

namespace DotConfig

/-- What stands before the first equals sign of a line. -/
def keyOf (line : String) : String :=
  String.ofList (line.toList.takeWhile (· ≠ '='))

/-- What stands after the first equals sign of a line. -/
def valueOf (line : String) : String :=
  String.ofList ((line.toList.dropWhile (· ≠ '=')).drop 1)

variable {entry : String × String}

/-- A printed entry gives its key back. -/
private theorem keyOf_renderEntry (h : Tidy entry) : keyOf (renderEntry entry) = entry.1 := by
  have hkey : ∀ c ∈ entry.1.toList, decide (c ≠ '=') = true := fun c hc =>
    decide_eq_true fun heq => h.no_equals (heq ▸ hc)
  -- The first equals sign of the line is the one after the key.
  rw [keyOf, toList_renderEntry, List.takeWhile_append_of_pos hkey]
  simp

/-- A printed entry gives its value back. -/
private theorem valueOf_renderEntry (h : Tidy entry) : valueOf (renderEntry entry) = entry.2 := by
  have hkey : ∀ c ∈ entry.1.toList, decide (c ≠ '=') = true := fun c hc =>
    decide_eq_true fun heq => h.no_equals (heq ▸ hc)
  -- The first equals sign of the line is the one after the key.
  rw [valueOf, toList_renderEntry, List.dropWhile_append_of_pos hkey]
  simp

/-- A line with a value is never the one that tells of none: it has one equals sign more than its
    key. -/
private theorem renderEntry_ne_unset (key value : String) :
    renderEntry (key, value) ≠ "# " ++ key ++ " is not set" := by
  intro heq
  -- Both lines hold the key, so the equals signs around it are compared.
  have hcount := congrArg (fun line : String => line.toList.count '=') heq
  have hbefore : "# ".toList.count '=' = 0 := by decide
  have hafter : " is not set".toList.count '=' = 0 := by decide
  simp only [toList_renderEntry, String.toList_append, List.count_append, List.count_cons_self,
    hbefore, hafter] at hcount
  omega

/-! ## The table that is current -/

/-- The lines of the configuration; none if it cannot be read. -/
def currentLines (files : FileSystem) (dir : String) : List (List Char) :=
  match files.contents (file dir) with
  | .ok content => lines content
  | .error _ => []

variable {files : FileSystem} {dir : String}

/-- The current options are the table of the current lines. -/
private theorem current_eq_tableOf :
    Store.current files dir = tableOf (currentLines files dir) := by
  unfold Store.current currentLines
  cases files.contents (file dir) <;> rfl

/-- All current entries are tidy, as all that a file gives are. -/
private theorem tidy_of_mem_current (h : entry ∈ (Store.current files dir).entries) :
    Tidy entry := by
  unfold Store.current at h
  cases hread : files.contents (file dir) with
  | ok content => rw [hread] at h; exact tidy_of_mem_options h
  | error fault => rw [hread] at h; cases h

end DotConfig

namespace Inquiry

open DotConfig (Tidy keyOf valueOf renderEntry Options)
open Store (current)

/-! ## Listings -/

/-- The lines of a listing. -/
def linesOf (filter : ListFilter) (options : Options) : List String :=
  (listed filter options).map renderEntry

section Lines

variable {options : Options} (htidy : ∀ entry ∈ options.entries, Tidy entry)
include htidy

private theorem tidy_of_mem_listed {filter : ListFilter} {entry : String × String}
    (h : entry ∈ listed filter options) : Tidy entry :=
  htidy entry (List.mem_of_mem_filter h)

/-- The lines of a listing give the listed keys back. -/
private theorem map_keyOf_linesOf (filter : ListFilter) :
    (linesOf filter options).map keyOf = (listed filter options).map Prod.fst := by
  rw [linesOf, List.map_map]
  exact List.map_congr_left fun entry hentry =>
    DotConfig.keyOf_renderEntry (tidy_of_mem_listed htidy hentry)

/-- Each filter is a condition on the lines of the whole listing. -/
theorem linesOf_eq_filter (builtIn : Bool) (start : String) :
    linesOf ⟨builtIn, start⟩ options =
      (linesOf ⟨false, ""⟩ options).filter fun line =>
        (!builtIn || valueOf line == "y") && start.toList.isPrefixOf (keyOf line).toList := by
  -- A condition on an entry is one on its line, which gives key and value back.
  rw [linesOf, linesOf, DotConfig.listed_all, List.filter_map, listed]
  refine congrArg (List.map renderEntry) (List.filter_congr fun entry hentry => ?_)
  simp only [ListFilter.admits, Function.comp_apply,
    DotConfig.keyOf_renderEntry (htidy entry hentry),
    DotConfig.valueOf_renderEntry (htidy entry hentry)]

/-- The listing of what is built in has the lines with the value `y`. -/
private theorem linesOf_builtIn :
    linesOf ⟨true, ""⟩ options =
      (linesOf ⟨false, ""⟩ options).filter fun line => valueOf line = "y" := by
  rw [linesOf_eq_filter htidy]
  exact List.filter_congr fun line _ => by simp [beq_eq_decide]

/-- The listing with a start has the lines whose keys start so. -/
private theorem linesOf_starting (start : String) :
    linesOf ⟨false, start⟩ options =
      (linesOf ⟨false, ""⟩ options).filter fun line =>
        start.toList.isPrefixOf (keyOf line).toList := by
  rw [linesOf_eq_filter htidy]
  exact List.filter_congr fun line _ => by simp

/-- Both conditions together pass the lines that each of them passes. -/
private theorem linesOf_both (start : String) :
    linesOf ⟨true, start⟩ options =
      (linesOf ⟨false, ""⟩ options).filter fun line =>
        line ∈ linesOf ⟨true, ""⟩ options ∧ line ∈ linesOf ⟨false, start⟩ options := by
  -- All three are filters of the whole listing, so the conditions are compared line by line.
  rw [linesOf_eq_filter htidy true, linesOf_builtIn htidy, linesOf_starting htidy start]
  refine List.filter_congr fun line hline => Bool.eq_iff_iff.mpr ?_
  simp [List.mem_filter, hline]

/-- A value is told by the line that is listed for it. -/
theorem get?_eq_some_iff_line {key value : String} :
    options.get? key = some value ↔
      renderEntry (key, value) ∈ linesOf ⟨false, ""⟩ options ∧
        keyOf (renderEntry (key, value)) = key := by
  rw [Table.get?_eq_some_iff, linesOf, DotConfig.listed_all]
  constructor
  · intro hmem
    exact ⟨List.mem_map_of_mem hmem, DotConfig.keyOf_renderEntry (htidy _ hmem)⟩
  · rintro ⟨hline, hkey⟩
    obtain ⟨entry, hentry, hrender⟩ := List.mem_map.mp hline
    -- The line gives its key back, and what is left of it is the value.
    have hsame : entry.1 = key := by
      rw [← DotConfig.keyOf_renderEntry (htidy entry hentry), hrender, hkey]
    have hvalue : entry.2 = value := by
      rw [renderEntry, renderEntry, hsame] at hrender
      exact String.append_right_inj _ |>.mp hrender
    rwa [← hsame, ← hvalue]

/-- The options with a value are counted by the lines that have it. -/
private theorem count_eq_length_filter (value : String) :
    count options value =
      ((linesOf ⟨false, ""⟩ options).filter fun line => valueOf line = value).length := by
  -- An entry has the value exactly if its line has.
  rw [count, Table.values, linesOf, DotConfig.listed_all, List.filter_map, List.filter_map,
    List.length_map, List.length_map]
  refine congrArg List.length (List.filter_congr fun entry hentry => ?_)
  simp only [Function.comp_apply, DotConfig.valueOf_renderEntry (htidy entry hentry)]

/-- No line has two values. -/
private theorem length_linesOf_le :
    (linesOf ⟨true, ""⟩ options).length +
        ((linesOf ⟨false, ""⟩ options).filter fun line => valueOf line = "m").length ≤
      (linesOf ⟨false, ""⟩ options).length := by
  rw [linesOf_builtIn htidy]
  generalize linesOf ⟨false, ""⟩ options = all
  have hparts := all.length_eq_length_filter_add fun line => decide (valueOf line = "y")
  -- What is a module is among what is not built in.
  have hmodules : (all.filter fun line => decide (valueOf line = "m")).length ≤
      (all.filter fun line => !decide (valueOf line = "y")).length := by
    refine (List.monotone_filter_right all fun line hline => ?_).length_le
    have hm : valueOf line = "m" := by simpa using hline
    simp [hm]
  omega

end Lines

/-- An option is built in exactly if its line is in the listing of what is built in. -/
private theorem builtIn_iff_line {options : Options} {key : String} :
    DotConfig.builtIn options key ↔ key ++ "=y" ∈ linesOf ⟨true, ""⟩ options := by
  rw [DotConfig.builtIn, decide_eq_true_iff, Table.get?_eq_some_iff, linesOf]
  constructor
  · intro hmem
    refine List.mem_map.mpr ⟨(key, "y"), List.mem_filter.mpr ⟨hmem, ?_⟩, String.append_assoc ..⟩
    simp [ListFilter.admits]
  · intro hline
    -- The listed value is `y`, so the lines can only be the same if the keys are.
    obtain ⟨entry, hentry, hrender⟩ := List.mem_map.mp hline
    obtain ⟨hmem, hadmits⟩ := List.mem_filter.mp hentry
    have hvalue : entry.2 = "y" := by simpa [ListFilter.admits] using hadmits
    have hkey : entry.1 = key := by
      rw [renderEntry, hvalue, String.append_assoc] at hrender
      exact String.append_left_inj _ |>.mp hrender
    rwa [← hkey, ← hvalue]

private theorem size_eq_length_linesOf (options : Options) :
    options.size = (linesOf ⟨false, ""⟩ options).length := by
  rw [linesOf, DotConfig.listed_all, List.length_map, Table.size]

/-! ## What each inquiry prints -/

section Printed

variable {files : FileSystem} {dir : String}

/-- A listing prints its lines. -/
private theorem printed_list (filter : ListFilter) :
    printed ((list filter).steps files .plain dir) =
      String.join ((linesOf filter (current files dir)).map fun line => line ++ "\n") := by
  rw [steps, printed_append, printed_inStore, String.empty_append, printed_lines, linesOf,
    List.map_map]
  rfl

/-- The printed lines of a listing are its lines. -/
theorem lines_list (filter : ListFilter) :
    Output.lines (printed ((list filter).steps files .plain dir)) =
      linesOf filter (current files dir) := by
  rw [printed_list]
  -- No key and no value has a line feed in it.
  refine Output.lines_join fun line hline => ?_
  obtain ⟨entry, hentry, rfl⟩ := List.mem_map.mp hline
  exact DotConfig.notMem_newline_renderEntry
    (tidy_of_mem_listed (fun entry => DotConfig.tidy_of_mem_current) hentry)

/-- The line about each option is printed, one after the other. -/
private theorem printed_get (keys : List String) :
    printed ((get keys).steps files .plain dir) =
      String.join (keys.map fun key =>
        valueLine .plain key ((current files dir).get? key) ++ "\n") := by
  -- Reading prints nothing, whether it takes place or not.
  have hread : printed (if keys = [] then []
      else (Store.readingEvents files dir).map .inStore) = "" := by
    split
    · rfl
    · exact printed_inStore _
  rw [steps, printed_append, hread, String.empty_append, printed_lines]

/-- The answer is the same whether the configuration has been read before or not. -/
private theorem answer_architecture_queried :
    ((Store.queried files .empty dir).architecture files dir).answer =
      (Store.empty.architecture files dir).answer := by
  unfold Store.architecture
  -- The choice depends on the known options only, and these are the same.
  simp only [Store.choose_eq, Store.known_queried]
  split
  · split <;> rfl
  · rfl

/-- A summary with these numbers. -/
def summaryText (dir : String) (total builtIn modules : Nat) (arch verdict : String) : String :=
  Output.intro "kconfig-probe info" ++
    Output.note ("\n".intercalate [
      "Kernel directory: " ++ dir,
      "Config file:      " ++ DotConfig.file dir,
      "Options:          " ++ toString total,
      "Built in (=y):    " ++ toString builtIn,
      "Modules (=m):     " ++ toString modules,
      "Architecture:     " ++ arch]) "Kernel config" ++
    Output.outro verdict

/-- A summary prints the numbers and the architecture. -/
private theorem printed_info :
    String.join (openingTexts .plain info) ++ printed (info.steps files .plain dir) =
      let options := current files dir
      let arch? := (Store.empty.architecture files dir).answer
      summaryText dir options.size (count options "y") (count options "m")
        (arch?.getD "unknown") (verdict .plain (namedArch? arch?)) := by
  simp only [steps, openingTexts, answer_architecture_queried, summaryText, summary, printed_append,
    printed_inStore, printed_print, printed_nil, String.empty_append, String.append_empty,
    String.join_cons, String.join_nil, Text.paint_plain, String.append_assoc]
  rfl

end Printed

end Inquiry

/-! ## Names of architectures -/

/-- Where no name in a tree is empty, none in a directory is. -/
private theorem FileTree.empty_notMem_listDirectory {tree : FileTree}
    (htree : ∀ place ∈ tree.nodes.keys, "" ∉ place) {workingDir : WorkingDir} {path : String}
    {names : List String} (h : tree.listDirectory workingDir path = .ok names) : "" ∉ names := by
  unfold listDirectory at h
  split at h
  · next directory _ =>
    cases h
    intro hmem
    obtain ⟨place, hplace, hname⟩ := List.mem_filterMap.mp (List.mem_mergeSort.mp hmem)
    -- A name in a directory is the last name of some place.
    unfold childName? at hname
    split at hname
    · next name hlast =>
      split at hname
      · cases hname
        exact htree place hplace (List.mem_of_getLast? hlast)
      · cases hname
    · cases hname
  · cases h
  · cases h; exact List.not_mem_nil
  · cases h
  · cases h

/-- An architecture has the name of a listed entry or of an alias. -/
private theorem Store.name_of_architecture {files : FileSystem} {store : Store} {dir name : String}
    (h : (store.architecture files dir).answer = some name) :
    (∃ names, files.listDirectory (Architecture.directory dir) = .ok names ∧ name ∈ names) ∨
      ∃ row ∈ Architecture.aliases, row.arch = name := by
  cases hd : files.isDirectory (Architecture.directory dir) with
  | false => simp [architecture, hd] at h
  | true =>
    cases hl : files.listDirectory (Architecture.directory dir) with
    | error fault => simp [architecture, hd, hl] at h
    | ok names =>
      simp only [architecture, hd, hl, if_true, choose_eq, Option.or_eq_some_iff] at h
      rcases h with hfound | ⟨-, halias⟩
      · exact .inl ⟨names, rfl, List.mem_of_find?_eq_some hfound⟩
      · obtain ⟨row, hrow, harch⟩ := Option.map_eq_some_iff.mp halias
        exact .inr ⟨row, List.mem_of_find?_eq_some hrow, harch⟩

/-- Where no name in a tree is empty, an architecture has a name that is not. -/
private theorem Store.name_ne_empty {tree : FileTree}
    (htree : ∀ place ∈ tree.nodes.keys, "" ∉ place)
    {workingDir : FileTree.WorkingDir} {store : Store} {dir name : String}
    (h : (store.architecture (tree.fileSystem workingDir) dir).answer = some name) : name ≠ "" := by
  rintro rfl
  rcases name_of_architecture h with ⟨names, hlist, hmem⟩ | ⟨row, hrow, harch⟩
  · have hnames : tree.listDirectory workingDir (Architecture.directory dir) = .ok names := by
      cases hread : tree.listDirectory workingDir (Architecture.directory dir) with
      | ok listed => simpa [FileTree.fileSystem, hread, Except.mapError] using hlist
      | error error => simp [FileTree.fileSystem, hread, Except.mapError] at hlist
    exact FileTree.empty_notMem_listDirectory htree hnames hmem
  · revert row
    decide

namespace Inquiry

open DotConfig (Tidy keyOf valueOf renderEntry Options)
open Store (current)

/-! ## Agreement -/

/-- The lines that a listing prints, where `out` tells what each inquiry prints. -/
def listing (out : Inquiry → String) (builtIn : Bool) (start : String) : List String :=
  Output.lines (out (.list ⟨builtIn, start⟩))

/-- How many lines of the listing have a value. -/
def linesWith (out : Inquiry → String) (value : String) : Nat :=
  ((listing out false "").filter fun line => valueOf line = value).length

/-- What the inquiries about a directory print, and the codes they exit with, agree with one another
    and with the lines of the configuration. -/
structure Agree (source : List (List Char)) (dir : String) (out : Inquiry → String)
    (code : Inquiry → Nat) : Prop where
  /-- A listing prints its lines and nothing else. -/
  whole_lines : ∀ builtIn start, out (.list ⟨builtIn, start⟩) =
    String.join ((listing out builtIn start).map fun line => line ++ "\n")
  /-- No two lines have the same key, -/
  distinct : ((listing out false "").map keyOf).Nodup
  /-- the keys are those that the configuration sets, -/
  listed_iff : ∀ key, key ∈ (listing out false "").map keyOf ↔
    ∃ line ∈ source, ∃ value, DotConfig.Line.ofChars line = .entry key value
  /-- and they stand in the order in which it first sets them. -/
  order : ((listing out false "").map keyOf).Pairwise fun key other =>
    DotConfig.firstLine source key < DotConfig.firstLine source other
  /-- The value of an option is the one in the line with its key. -/
  get_iff : ∀ key value, out (.get [key]) = key ++ "=" ++ value ++ "\n" ↔
    key ++ "=" ++ value ∈ listing out false "" ∧ keyOf (key ++ "=" ++ value) = key
  /-- An option without a value is told to be unset. -/
  get_unset : ∀ key, (∀ value, out (.get [key]) ≠ key ++ "=" ++ value ++ "\n") →
    out (.get [key]) = "# " ++ key ++ " is not set" ++ "\n"
  /-- Several options are asked for one after the other. -/
  get_several : ∀ keys, out (.get keys) = String.join (keys.map fun key => out (.get [key]))
  /-- An option is built in if it is listed among those that are. -/
  enabled_iff : ∀ key quiet,
    code (.enabled key quiet) = 0 ↔ key ++ "=y" ∈ listing out true ""
  /-- The listing of what is built in has the lines with the value `y`, -/
  built_in : listing out true "" =
    (listing out false "").filter fun line => valueOf line = "y"
  /-- the one with a start has the lines whose keys start so, -/
  starting : ∀ start, listing out false start =
    (listing out false "").filter fun line => start.toList.isPrefixOf (keyOf line).toList
  /-- and the one with both conditions has the lines that are in both. -/
  both : ∀ start, listing out true start =
    (listing out false "").filter fun line =>
      line ∈ listing out true "" ∧ line ∈ listing out false start
  /-- No option is both built in and a module. -/
  counts : (listing out true "").length + linesWith out "m" ≤ (listing out false "").length
  /-- A summary counts the lines and shows the architecture. -/
  info_arch : code .arch = 0 → ∃ name, out .arch = name ++ "\n" ∧
    out .info = summaryText dir (listing out false "").length (listing out true "").length
      (linesWith out "m") name
      (if name = "" then "✖ Architecture could not be determined" else "✔ Done")
  /-- It tells where there is none. -/
  info_unknown : code .arch ≠ 0 →
    out .info = summaryText dir (listing out false "").length (listing out true "").length
      (linesWith out "m") "unknown" "✖ Architecture could not be determined"

/-- The inquiry about the architecture succeeds exactly if there is one. -/
private theorem exitCode_arch_eq_zero_iff {files : FileSystem} {dir : String} :
    arch.exitCode files dir = 0 ↔
      ∃ name, (Store.empty.architecture files dir).answer = some name := by
  -- The exit code tells whether there is an answer.
  rw [exitCode, ← Option.isSome_iff_exists]
  cases (Store.empty.architecture files dir).answer.isSome <;> simp

section Answers

variable {files : FileSystem} {dir : String} {out : Inquiry → String} {code : Inquiry → Nat}
  (hout : ∀ inquiry : Inquiry, out inquiry =
    String.join (inquiry.openingTexts .plain) ++ printed (inquiry.steps files .plain dir))
include hout

/-- All inquiries but the summary print their steps and nothing before them. -/
private theorem out_eq (inquiry : Inquiry) (h : inquiry ≠ .info) :
    out inquiry = printed (inquiry.steps files .plain dir) := by
  have hopening : inquiry.openingTexts .plain = [] := by
    cases inquiry with
    | info => exact absurd rfl h
    | _ => rfl
  rw [hout, hopening, String.join_nil, String.empty_append]

private theorem listing_eq (builtIn : Bool) (start : String) :
    listing out builtIn start = linesOf ⟨builtIn, start⟩ (current files dir) := by
  rw [listing, out_eq hout (list _) nofun, lines_list]

/-- Asking for options prints the line about each of them. -/
private theorem get_eq (keys : List String) :
    out (.get keys) = String.join (keys.map fun key =>
      valueLine .plain key ((current files dir).get? key) ++ "\n") := by
  rw [out_eq hout (get keys) nofun, printed_get]

private theorem get_one_eq (key : String) :
    out (.get [key]) = valueLine .plain key ((current files dir).get? key) ++ "\n" := by
  rw [get_eq hout, List.map_singleton, String.join_cons, String.join_nil, String.append_empty]

/-- A value is printed exactly if the option has it. -/
private theorem get_eq_iff {key value : String} :
    out (.get [key]) = key ++ "=" ++ value ++ "\n" ↔
      (current files dir).get? key = some value := by
  rw [get_one_eq hout, String.append_left_inj]
  cases hvalue : (current files dir).get? key with
  | none =>
    -- The line that tells of no value is not the line of any value.
    exact iff_of_false (fun heq => DotConfig.renderEntry_ne_unset key value heq.symm) nofun
  | some other =>
    rw [valueLine, renderEntry, String.append_right_inj, Option.some.injEq]

/-- An architecture is printed on a line of its own. -/
private theorem arch_eq {name : String}
    (h : (Store.empty.architecture files dir).answer = some name) :
    out .arch = name ++ "\n" := by
  rw [out_eq hout arch nofun, steps, h]
  simp

/-- The numbers of a summary are those of the lines of the listings. -/
private theorem info_eq (arch? : Option String)
    (harch : (Store.empty.architecture files dir).answer = arch?) :
    out .info = summaryText dir (listing out false "").length (listing out true "").length
      (linesWith out "m") (arch?.getD "unknown") (verdict .plain (namedArch? arch?)) := by
  have htidy : ∀ entry ∈ (current files dir).entries, Tidy entry :=
    fun entry => DotConfig.tidy_of_mem_current
  -- What is built in is counted by a listing of its own.
  have hbuilt : (listing out true "").length = count (current files dir) "y" := by
    rw [listing_eq hout, linesOf_builtIn htidy, count_eq_length_filter htidy]
  rw [hout, printed_info, hbuilt, linesWith, listing_eq hout, ← size_eq_length_linesOf,
    ← count_eq_length_filter htidy "m", ← harch]

/-- Whatever prints and exits like the steps of the inquiries agrees with itself. -/
private theorem agree (hcode : ∀ inquiry : Inquiry, code inquiry = inquiry.exitCode files dir) :
    Agree (DotConfig.currentLines files dir) dir out code := by
  have htidy : ∀ entry ∈ (current files dir).entries, Tidy entry :=
    fun entry => DotConfig.tidy_of_mem_current
  have hlisting := listing_eq hout
  -- What is said of the listed keys is said of the table of the lines.
  have hkeys : (listing out false "").map keyOf =
      (DotConfig.tableOf (DotConfig.currentLines files dir)).keys := by
    rw [hlisting, map_keyOf_linesOf htidy, DotConfig.listed_all, ← DotConfig.current_eq_tableOf]
    rfl
  constructor
  case whole_lines =>
    intro builtIn start
    rw [hlisting, out_eq hout (list _) nofun, printed_list]
  case distinct =>
    rw [hkeys]
    exact Table.nodup_keys _
  case listed_iff =>
    intro key
    rw [hkeys, DotConfig.mem_keys_tableOf]
  case order =>
    rw [hkeys]
    exact DotConfig.pairwise_keys_tableOf _
  case get_iff =>
    intro key value
    rw [get_eq_iff hout, get?_eq_some_iff_line htidy, hlisting]
    rfl
  case get_unset =>
    intro key hnone
    have hvalue : (current files dir).get? key = none := by
      refine Option.eq_none_iff_forall_ne_some.mpr fun value hvalue => ?_
      exact hnone value ((get_eq_iff hout).mpr hvalue)
    rw [get_one_eq hout, hvalue]
    rfl
  case get_several =>
    intro keys
    -- Each option is answered from what was read for the first one.
    rw [get_eq hout]
    exact congrArg String.join (List.map_congr_left fun key _ => (get_one_eq hout key).symm)
  case enabled_iff =>
    intro key quiet
    rw [hcode, exitCode, hlisting, ← builtIn_iff_line]
    cases DotConfig.builtIn (current files dir) key <;> simp
  case built_in =>
    rw [hlisting, hlisting, linesOf_builtIn htidy]
  case starting =>
    intro start
    rw [hlisting, hlisting, linesOf_starting htidy]
  case both =>
    intro start
    rw [hlisting, hlisting, hlisting, hlisting, linesOf_both htidy]
  case counts =>
    rw [linesWith, hlisting, hlisting]
    exact length_linesOf_le htidy
  case info_arch =>
    intro hzero
    rw [hcode, exitCode_arch_eq_zero_iff] at hzero
    obtain ⟨name, harch⟩ := hzero
    refine ⟨name, arch_eq hout harch, ?_⟩
    rw [info_eq hout (some name) harch]
    by_cases hempty : name = "" <;> simp [namedArch?, verdict, Log.failure, Option.filter, hempty]
  case info_unknown =>
    intro hnonzero
    rw [hcode, ne_eq, exitCode_arch_eq_zero_iff, not_exists] at hnonzero
    exact info_eq hout none (Option.eq_none_iff_forall_ne_some.mpr hnonzero)

end Answers

variable {tree : FileTree} {env : Environment} {flags : SessionFlags}

/-- In one session, without colours, all inquiries agree.  An architecture that is told has a name,
    unless there is an empty name in the tree. -/
theorem inquiries_agree (trace? : Option String) {session : Session}
    (h : Session.start tree env flags = .ok session) :
    let files := tree.fileSystem env.workingDir
    let out := fun inquiry : Inquiry =>
      Output.stdout (inquiry.run .plain trace? tree env flags).events
    let code := fun inquiry : Inquiry => (inquiry.run .plain trace? tree env flags).exitCode
    Agree (DotConfig.currentLines files session.kernelDir) session.kernelDir out code ∧
      ((∀ place ∈ tree.nodes.keys, "" ∉ place) → code .arch = 0 → out .arch ≠ "\n") := by
  intro files out code
  have hout : ∀ inquiry : Inquiry, out inquiry = String.join (inquiry.openingTexts .plain) ++
      printed (inquiry.steps files .plain session.kernelDir) := fun inquiry => stdout_run h inquiry
  have hcode : ∀ inquiry : Inquiry, code inquiry = inquiry.exitCode files session.kernelDir :=
    fun inquiry => congrArg Output.Outcome.exitCode (run_eq h inquiry)
  refine ⟨agree hout hcode, fun htree hzero hnameless => ?_⟩
  -- An empty line would be an architecture without a name.
  rw [hcode, exitCode_arch_eq_zero_iff] at hzero
  obtain ⟨name, harch⟩ := hzero
  rw [arch_eq hout harch] at hnameless
  exact Store.name_ne_empty htree harch (String.append_eq_right_iff.mp hnameless)

/-- A configuration in the root: the option that it sets is listed. -/
theorem inquiries_agree_root :
    let tree := FileTree.empty.put [".config"] (.file "# B is not set\nA=y")
    let out := fun inquiry : Inquiry =>
      Output.stdout (inquiry.run .plain none tree Settings.rootEnvironment ⟨none, false⟩).events
    Session.start tree Settings.rootEnvironment ⟨none, false⟩ = .ok ⟨"/", .console false⟩ ∧
      "A" ∈ (listing out false "").map keyOf ∧ "B" ∉ (listing out false "").map keyOf := by
  intro tree out
  have hstart : Session.start tree Settings.rootEnvironment ⟨none, false⟩ =
      .ok ⟨"/", .console false⟩ :=
    Session.start_of_resolve _ (Settings.load_of_noRootFile (by decide) rfl) (by cbv)
  have hagree := (inquiries_agree none hstart).1
  have hnode : tree.node? [".config"] = some (.file "# B is not set\nA=y") := rfl
  have hcontents : (tree.fileSystem Settings.rootEnvironment.workingDir).contents
      (DotConfig.file "/") = .ok "# B is not set\nA=y" := by
    have hfile : DotConfig.file "/" = "/.config" := by decide
    have hread : tree.contents Settings.rootEnvironment.workingDir "/.config" =
        .ok "# B is not set\nA=y" := by
      rw [FileTree.contents, FileTree.lookUp, Settings.locate_inRoot hnode (by simp) (by decide)
        (by decide) (by decide) (by decide) (by decide)]
    rw [hfile, FileTree.fileSystem]
    simp only [hread]
    rfl
  -- The file has two lines, and only the second one sets an option.
  have hsource : DotConfig.currentLines (tree.fileSystem Settings.rootEnvironment.workingDir) "/" =
      ["# B is not set".toList, "A=y".toList] := by
    rw [DotConfig.currentLines, hcontents]
    decide
  refine ⟨hstart, ?_, ?_⟩
  · rw [hagree.listed_iff, hsource]
    exact ⟨"A=y".toList, by simp, "y", by decide⟩
  · rw [hagree.listed_iff, hsource]
    have hcomment : DotConfig.Line.ofChars "# B is not set".toList = .skip := by decide
    have hassigned : DotConfig.Line.ofChars "A=y".toList = .entry "A" "y" := by decide
    rintro ⟨line, hline, value, hentry⟩
    rcases List.mem_pair.mp hline with rfl | rfl
    · rw [hcomment] at hentry
      cases hentry
    · rw [hassigned] at hentry
      simp at hentry

/-- Where a stored setting is refused the inquiries tell so and nothing else: an option is neither
    shown with a value nor as unset. -/
theorem not_agree_of_refused_setting :
    let tree := FileTree.empty.put ["s"] (.file "verbose=maybe\n")
    let out := fun inquiry : Inquiry =>
      Output.stdout (inquiry.run .plain none tree Settings.rootEnvironment ⟨none, false⟩).events
    let code := fun inquiry : Inquiry =>
      (inquiry.run .plain none tree Settings.rootEnvironment ⟨none, false⟩).exitCode
    ¬∃ source dir, Agree source dir out code := by
  intro tree out code
  let raw : Settings.Raw := Table.empty.put .verbose (.ofString "maybe")
  have hstorable : ∀ w ∈ raw.values, Settings.Storable w := by
    intro w hw
    obtain rfl := List.mem_singleton.mp hw
    exact Settings.storable_ofString (by decide)
  have hread : Settings.Raw.ofText [] "verbose=maybe\n" = .ok raw := by
    -- The stored text is one that is read as it was written.
    have hback : raw.readBack = raw :=
      (Settings.readBack_eq_self_iff hstorable).mpr (by decide)
    have hrender : raw.render = "verbose=maybe\n" := by decide
    rw [← hrender, Settings.ofText_render [] hstorable, hback]
  have hstored : Settings.stored tree Settings.rootEnvironment = .ok raw :=
    (Settings.change_rootFile rfl hread (rfl : raw.set [] = .ok raw)).1
  have hload : Settings.load tree Settings.rootEnvironment .empty false =
      .error (.invalid .notBoolean) := by
    rw [Settings.load, hstored]
    rfl
  rintro ⟨source, dir, hagree⟩
  have hfailed : Failed .plain (get ["A"]) (.ofSettings none (.invalid .notBoolean))
      ((get ["A"]).run .plain none tree Settings.rootEnvironment ⟨none, false⟩) :=
    failed_of_start (Session.start_of_load_error _ hload) _
  -- What is told about the option is neither of the two things that could be.
  have hget : out (.get ["A"]) =
      "│\n└  ✖ Invalid config property verbose: Must be a boolean\n\n" := hfailed.stdout
  have hunset := hagree.get_unset "A" fun value heq => by
    have hhead := congrArg (fun text : String => text.toList.head?) (hget.symm.trans heq)
    simp at hhead
  rw [hget] at hunset
  revert hunset
  decide

end Inquiry

end KconfigQuery
