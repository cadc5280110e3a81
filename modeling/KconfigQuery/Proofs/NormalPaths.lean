import KconfigQuery.DotConfig.Options

/-! # Paths in normal form

A resolved path is a slash and then names with a slash between each two.  So it is read back as
these names, it is resolved to itself from wherever one looks, and what stands below it is found
by adding a name.  Names are added in the same way to any directory, absolute or not: they come
after one and the same text, which only depends on the directory.

* `canonical_iff`         paths in normal form are those that are written with names
* `canonical_resolve`     every path is resolved to normal form
* `Canonical.resolve_eq`  a path in normal form is resolved to itself
* `toList_join_names`     names below any directory
* `lead_join`             names below what was joined before
* `Canonical.join_eq`     a name below a path in normal form
* `file_inj`              different directories have different files `.config` -/

namespace KconfigQuery

namespace Path

/-- What a segment in normal form can be: the name of something in a directory. -/
structure IsName (segment : List Char) : Prop where
  ne_nil : segment ≠ []
  ne_here : segment ≠ here
  ne_up : segment ≠ up
  noSlash : '/' ∉ segment

instance (segment : List Char) : Decidable (IsName segment) :=
  decidable_of_iff (segment ≠ [] ∧ segment ≠ here ∧ segment ≠ up ∧ '/' ∉ segment)
    ⟨fun h => ⟨h.1, h.2.1, h.2.2.1, h.2.2.2⟩, fun h => ⟨h.1, h.2, h.3, h.4⟩⟩

/-- The absolute path that goes through these names. -/
def ofNames (names : List (List Char)) : String :=
  String.ofList ('/' :: Text.joinPieces '/' names)

/-- The path is absolute and in normal form: but for the root, it has no segment that is empty,
    `.` or `..`, and no slash at its end. -/
structure Canonical (path : String) : Prop where
  isAbsolute : isAbsolute path
  isName : path ≠ "/" → ∀ segment ∈ (Text.pieces '/' path.toList).tail, IsName segment
  noSlash : path ≠ "/" → path.toList.getLast? ≠ some '/'

variable {names : List (List Char)}

theorem isAbsolute_iff {path : String} :
    Path.isAbsolute path ↔ ∃ cs, path.toList = '/' :: cs := by
  rw [Path.isAbsolute, beq_iff_eq, List.head?_eq_some_iff]

/-! ## The names of a path -/

/-- What is left of a rooted path are names: it keeps no `..`. -/
private theorem Normal.isName {segments : List (List Char)} (h : Normal true segments) :
    ∀ segment ∈ segments, IsName segment := by
  induction segments with
  | nil => simp
  | cons last before ih =>
    obtain ⟨hnil, hhere, hslash, hup, hbefore⟩ := h
    intro segment hmem
    rcases List.mem_cons.mp hmem with rfl | hmem
    · -- A `..` is kept only in a path that is not rooted.
      have hne : segment ≠ up := fun heq => Bool.noConfusion (hup heq).1
      exact ⟨hnil, hhere, hne, hslash⟩
    · exact ih hbefore segment hmem

private theorem isName_of_mem_normalSegments {cs segment : List Char}
    (h : segment ∈ normalSegments true cs) : IsName segment :=
  (normal_reversedSegments true cs).isName segment (List.mem_reverse.mp h)

/-- Names are added as they are. -/
private theorem foldl_push_of_isName (rooted : Bool) (done : List (List Char))
    (h : ∀ name ∈ names, IsName name) :
    names.foldl (push rooted) done = names.reverse ++ done := by
  induction names generalizing done with
  | nil => rfl
  | cons name names ih =>
    have hname := h name List.mem_cons_self
    -- A name is none of the segments that `push` drops or lets consume another one.
    have hpush : push rooted done name = name :: done := by
      simp [push, hname.ne_nil, hname.ne_here, hname.ne_up]
    rw [List.foldl_cons, hpush, ih _ fun other hother => h other (List.mem_cons_of_mem _ hother)]
    simp

theorem toList_ofNames (names : List (List Char)) :
    (ofNames names).toList = '/' :: Text.joinPieces '/' names := by
  simp [ofNames]

theorem isAbsolute_ofNames (names : List (List Char)) : Path.isAbsolute (ofNames names) :=
  isAbsolute_iff.mpr ⟨_, toList_ofNames names⟩

/-- Before the first slash there is an empty segment. -/
theorem pieces_slash_cons (cs : List Char) :
    Text.pieces '/' ('/' :: cs) = [] :: Text.pieces '/' cs := by
  simp [Text.pieces]

/-- Cut at its slashes, the path through some names is these names after an empty segment. -/
private theorem pieces_ofNames (hne : names ≠ []) (h : ∀ name ∈ names, IsName name) :
    Text.pieces '/' (ofNames names).toList = [] :: names := by
  rw [toList_ofNames, pieces_slash_cons,
    Text.pieces_joinPieces hne fun name hname => (h name hname).noSlash]

/-- The path through some names is read back as these names, the last one first. -/
private theorem reversedSegments_ofNames (rooted : Bool) (h : ∀ name ∈ names, IsName name) :
    reversedSegments rooted (ofNames names).toList = names.reverse := by
  by_cases hne : names = []
  · subst hne
    rfl
  · rw [reversedSegments, pieces_ofNames hne h, List.foldl_cons]
    -- What stands before the first slash adds nothing.
    have hempty : push rooted [] [] = [] := by simp [push]
    rw [hempty, foldl_push_of_isName rooted [] h, List.append_nil]

theorem normalSegments_ofNames (rooted : Bool) (h : ∀ name ∈ names, IsName name) :
    normalSegments rooted (ofNames names).toList = names := by
  rw [normalSegments, reversedSegments_ofNames rooted h, List.reverse_reverse]

/-- A path goes through its names only. -/
theorem ofNames_inj {others : List (List Char)} (h : ∀ name ∈ names, IsName name)
    (hothers : ∀ name ∈ others, IsName name) (heq : ofNames names = ofNames others) :
    names = others := by
  rw [← normalSegments_ofNames true h, heq, normalSegments_ofNames true hothers]

/-- A rooted path without a slash at its end is written as the path through its segments. -/
private theorem text_rooted (names : List (List Char)) :
    (⟨true, names, false⟩ : Path).text = ofNames names := by
  by_cases hne : names = []
  · subst hne
    rfl
  · simp [text, ofNames, hne]

/-! ## Normal form -/

/-- A slash at the end of a text leaves an empty segment after it. -/
private theorem nil_mem_pieces_of_getLast? {cs : List Char} (h : cs.getLast? = some '/') :
    [] ∈ (Text.pieces '/' cs).tail := by
  -- The slash is the last character, so nothing stands after it.
  obtain ⟨before, rfl⟩ := List.getLast?_eq_some_iff.mp h
  rw [Text.pieces_append]
  cases hp : Text.pieces '/' before with
  | nil => exact absurd hp (Text.pieces_ne_nil '/' before)
  | cons first rest => simp [Text.pieces]

/-- **Normal form**: an absolute path is in normal form iff it is the path through some names. -/
theorem canonical_iff {path : String} :
    Canonical path ↔ ∃ names, (∀ name ∈ names, IsName name) ∧ path = ofNames names := by
  constructor
  · intro h
    by_cases hroot : path = "/"
    · exact ⟨[], by simp, hroot⟩
    · -- The names are the segments after the first slash.
      obtain ⟨cs, hcs⟩ := isAbsolute_iff.mp h.isAbsolute
      have hnames := h.isName hroot
      rw [hcs, pieces_slash_cons, List.tail_cons] at hnames
      refine ⟨Text.pieces '/' cs, hnames, ?_⟩
      apply String.toList_inj.mp
      rw [toList_ofNames, Text.joinPieces_pieces, hcs]
  · rintro ⟨names, hnames, rfl⟩
    have hsegments : ofNames names ≠ "/" →
        ∀ segment ∈ (Text.pieces '/' (ofNames names).toList).tail, IsName segment := by
      intro hroot
      have hne : names ≠ [] := fun heq => hroot (by rw [heq]; rfl)
      rw [pieces_ofNames hne hnames]
      exact hnames
    refine ⟨isAbsolute_ofNames names, hsegments, ?_⟩
    intro hroot hslash
    exact (hsegments hroot [] (nil_mem_pieces_of_getLast? hslash)).ne_nil rfl

/-! ## Resolved paths -/

/-- From the root, the working directory does not matter. -/
theorem resolve_of_isAbsolute {path : String} (h : Path.isAbsolute path)
    (workingDir other : String) : resolve workingDir path = resolve other path := by
  simp only [resolve, h, if_true]

/-- The empty path names the working directory. -/
theorem resolve_empty {workingDir : String} (h : Path.isAbsolute workingDir) (other : String) :
    resolve workingDir "" = resolve other workingDir := by
  have hempty : Path.isAbsolute "" = false := rfl
  simp only [resolve, h, hempty, if_true, if_false, Bool.false_eq_true]

/-- What is left of an absolute text is its normal segments. -/
private theorem text_read_of_isAbsolute {full : String} (h : Path.isAbsolute full) :
    { read full with slashed := false }.text = ofNames (normalSegments true full.toList) := by
  rw [← text_rooted]
  simp [read, h]

/-- **What `resolve` gives**: from an absolute working directory every path, `..` and empty segments
    and all, is resolved to an absolute path in normal form. -/
theorem canonical_resolve {workingDir : String} (h : Path.isAbsolute workingDir) (path : String) :
    Canonical (resolve workingDir path) := by
  -- Whatever text is normalised, it is absolute, and that is all that is used of it.
  have key : ∀ full : String, Path.isAbsolute full →
      Canonical { read full with slashed := false }.text := by
    intro full hfull
    rw [text_read_of_isAbsolute hfull]
    exact canonical_iff.mpr ⟨_, fun _ => isName_of_mem_normalSegments, rfl⟩
  unfold resolve
  split
  · next habsolute => exact key _ habsolute
  · split
    · exact key _ h
    · -- What is added comes after the slash of the working directory.
      apply key
      obtain ⟨cs, hcs⟩ := isAbsolute_iff.mp h
      apply isAbsolute_iff.mpr
      exact ⟨cs ++ '/' :: path.toList, by simp [hcs]⟩

/-- A path in normal form is resolved to itself, whatever the working directory. -/
theorem Canonical.resolve_eq {path : String} (h : Canonical path) (workingDir : String) :
    resolve workingDir path = path := by
  obtain ⟨names, hnames, rfl⟩ := canonical_iff.mp h
  have habsolute := isAbsolute_ofNames names
  simp only [resolve, habsolute, if_true]
  rw [text_read_of_isAbsolute habsolute, normalSegments_ofNames true hnames]

/-! ## Texts of normal segments -/

private theorem normal_read (text : String) :
    Normal (read text).rooted (read text).segments.reverse := by
  simpa [read, normalSegments] using normal_reversedSegments (isAbsolute text) text.toList

/-- The characters of a path that has segments: a slash in front if it is rooted, and the segments
    with slashes between them. -/
private theorem toList_text (rooted : Bool) {segments : List (List Char)} (h : segments ≠ []) :
    (⟨rooted, segments, false⟩ : Path).text.toList =
      (if rooted then ['/'] else []) ++ Text.joinPieces '/' segments := by
  cases rooted <;> simp [text, h]

/-- Segments have no slash at either end, so there is none when they are joined. -/
private theorem joinPieces_ends {segments : List (List Char)} (hne : segments ≠ [])
    (h : ∀ segment ∈ segments, segment ≠ [] ∧ '/' ∉ segment) :
    Text.joinPieces '/' segments ≠ [] ∧ (Text.joinPieces '/' segments).head? ≠ some '/' ∧
      (Text.joinPieces '/' segments).getLast? ≠ some '/' := by
  have hpieces := Text.pieces_joinPieces hne fun segment hmem => (h segment hmem).2
  -- A slash or nothing at an end would leave an empty segment there.
  have hnil : [] ∉ Text.pieces '/' (Text.joinPieces '/' segments) := by
    rw [hpieces]
    exact fun hmem => (h [] hmem).1 rfl
  refine ⟨?_, ?_, ?_⟩
  · intro hempty
    rw [hempty] at hnil
    exact hnil (by simp [Text.pieces])
  · intro hslash
    obtain ⟨cs, hcs⟩ := List.head?_eq_some_iff.mp hslash
    rw [hcs, pieces_slash_cons] at hnil
    exact hnil List.mem_cons_self
  · intro hslash
    exact hnil (List.mem_of_mem_tail (nil_mem_pieces_of_getLast? hslash))

/-- No normal segment is empty or has a slash. -/
private theorem Normal.ne_nil_and_noSlash {rooted : Bool} {segments : List (List Char)}
    (h : Normal rooted segments) : ∀ segment ∈ segments, segment ≠ [] ∧ '/' ∉ segment := by
  induction segments with
  | nil => simp
  | cons last before ih =>
    intro segment hmem
    rcases List.mem_cons.mp hmem with rfl | hmem
    · exact ⟨h.1, h.2.2.1⟩
    · exact ih h.2.2.2.2 segment hmem

/-- Segments that are normal are added as they are. -/
private theorem Normal.foldl_push {rooted : Bool} {segments : List (List Char)}
    (h : Normal rooted segments) : segments.reverse.foldl (Path.push rooted) [] = segments := by
  -- Induction on the segments from the last one, which is added to those before it.
  induction segments with
  | nil => rfl
  | cons last before ih =>
    obtain ⟨hnil, hhere, -, hup, hbefore⟩ := h
    rw [List.reverse_cons, List.foldl_append, ih hbefore, List.foldl_cons, List.foldl_nil]
    unfold Path.push
    rw [if_neg (by simp [hnil, hhere])]
    by_cases heq : last = up
    · -- A `..` stays where there is nothing but `..` before it.
      obtain ⟨rfl, hall⟩ := hup heq
      cases before with
      | nil => simp [heq]
      | cons segment rest => simp [heq, hall segment List.mem_cons_self]
    · rw [if_neg heq]

/-! ## What stands below a path -/

/-- What stands before the names of things below a directory: the directory in normal form with a
    slash at its end, or nothing if no segment is left of it. -/
def lead (dir : String) : List Char :=
  (if isAbsolute dir then ['/'] else []) ++
    (normalSegments (isAbsolute dir) dir.toList).flatMap (· ++ ['/'])

section Again

variable {rooted : Bool} {segments : List (List Char)} (h : Normal rooted segments.reverse)
  (hne : segments ≠ [])
include h hne

/-- The text of normal segments is absolute iff they are rooted. -/
theorem Normal.isAbsolute_text :
    Path.isAbsolute (⟨rooted, segments, false⟩ : Path).text = rooted := by
  have hplain : ∀ segment ∈ segments, segment ≠ [] ∧ '/' ∉ segment := by
    simpa using h.ne_nil_and_noSlash
  rw [Path.isAbsolute, toList_text rooted hne]
  -- Without a root the first segment comes first, and it has no slash in front.
  cases rooted with
  | true => rfl
  | false => simpa using (joinPieces_ends hne hplain).2.1

/-- Normal segments are read again from their text. -/
private theorem Normal.normalSegments_text :
    normalSegments rooted (⟨rooted, segments, false⟩ : Path).text.toList = segments := by
  have hslash : ∀ segment ∈ segments, '/' ∉ segment := fun segment hmem =>
    (h.ne_nil_and_noSlash segment (List.mem_reverse.mpr hmem)).2
  have hfold := h.foldl_push
  rw [List.reverse_reverse] at hfold
  rw [toList_text rooted hne, normalSegments, reversedSegments]
  cases rooted with
  | true =>
    -- What stands before the first slash adds nothing.
    have hempty : Path.push true [] [] = [] := by simp [Path.push]
    rw [if_pos rfl, List.singleton_append, pieces_slash_cons, Text.pieces_joinPieces hne hslash,
      List.foldl_cons, hempty, hfold, List.reverse_reverse]
  | false =>
    rw [if_neg (by simp), List.nil_append, Text.pieces_joinPieces hne hslash, hfold,
      List.reverse_reverse]

/-- What comes before names below a path that is in normal form already: its text and a slash. -/
private theorem Normal.lead_text :
    lead (⟨rooted, segments, false⟩ : Path).text =
      (⟨rooted, segments, false⟩ : Path).text.toList ++ ['/'] := by
  rw [lead, h.isAbsolute_text hne, h.normalSegments_text hne, toList_text rooted hne,
    ← Text.joinPieces_append_sep hne, List.append_assoc]

end Again

/-- The text of a directory with names after it, as it is before it is normalised.  An empty
    directory is left out. -/
def extended (dir : String) (names : List (List Char)) : String :=
  String.ofList ((if dir = "" then [] else dir.toList ++ ['/']) ++ Text.joinPieces '/' names)

private theorem toList_extended (dir : String) (names : List (List Char)) :
    (extended dir names).toList =
      (if dir = "" then [] else dir.toList ++ ['/']) ++ Text.joinPieces '/' names :=
  String.toList_ofList

section Extended

variable (dir : String) (hne : names ≠ []) (h : ∀ name ∈ names, IsName name)
include hne h

/-- Joined names are not empty and have no slash at either end. -/
private theorem joinPieces_names_ends :
    Text.joinPieces '/' names ≠ [] ∧ (Text.joinPieces '/' names).head? ≠ some '/' ∧
      (Text.joinPieces '/' names).getLast? ≠ some '/' :=
  joinPieces_ends hne fun name hname => ⟨(h name hname).ne_nil, (h name hname).noSlash⟩

/-- A directory with names after it is not the empty text. -/
private theorem extended_ne_empty : extended dir names ≠ "" := by
  intro hempty
  have hchars := congrArg String.toList hempty
  rw [toList_extended] at hchars
  exact (joinPieces_names_ends hne h).1 (List.append_eq_nil_iff.mp hchars).2

/-- Names after a directory leave it absolute or relative as it was. -/
private theorem isAbsolute_extended : isAbsolute (extended dir names) = isAbsolute dir := by
  rw [isAbsolute, isAbsolute, toList_extended]
  by_cases hdir : dir = ""
  · subst hdir
    simpa using (joinPieces_names_ends hne h).2.1
  · -- The first character is that of the directory, which is not empty.
    have hsome : dir.toList.head?.isSome := by simpa using hdir
    rw [if_neg hdir, List.append_assoc, List.head?_append, Option.or_of_isSome hsome]

/-- The normal segments of a directory with names after it: those of the directory, then the names.
    -/
private theorem normalSegments_extended (rooted : Bool) :
    normalSegments rooted (extended dir names).toList =
      normalSegments rooted dir.toList ++ names := by
  have hpieces := Text.pieces_joinPieces hne fun name hname => (h name hname).noSlash
  rw [normalSegments, normalSegments, toList_extended]
  by_cases hdir : dir = ""
  · subst hdir
    -- An empty directory has a single empty segment, which adds nothing.
    have hempty : reversedSegments rooted "".toList = [] := by
      simp [reversedSegments, Text.pieces, push]
    rw [if_pos rfl, List.nil_append, hempty, reversedSegments, hpieces,
      foldl_push_of_isName rooted [] h]
    simp
  · rw [if_neg hdir, List.append_assoc, List.singleton_append, reversedSegments_append, hpieces,
      foldl_push_of_isName rooted _ h]
    simp

/-- The names are read after the normal segments of the directory. -/
private theorem read_extended :
    read (extended dir names) =
      ⟨isAbsolute dir, normalSegments (isAbsolute dir) dir.toList ++ names, false⟩ := by
  obtain ⟨hnonempty, -, hlast⟩ := joinPieces_names_ends hne h
  have hslash : ((extended dir names).toList.getLast? == some '/') = false := by
    -- The last character is that of the last name.
    have hsome : (Text.joinPieces '/' names).getLast?.isSome := by simpa using hnonempty
    rw [toList_extended, List.getLast?_append, Option.or_of_isSome hsome]
    simpa using hlast
  rw [read]
  simp only [isAbsolute_extended dir hne h, normalSegments_extended dir hne h, hslash]

end Extended

section Below

variable (dir : String) {parts : List String} (hne : parts ≠ [])
  (h : ∀ part ∈ parts, IsName part.toList)
include hne h

/-- Names are joined to the normal segments of the directory. -/
private theorem join_names :
    join (dir :: parts) =
      (⟨isAbsolute dir, normalSegments (isAbsolute dir) dir.toList ++ parts.map String.toList,
        false⟩ : Path).text := by
  have hne' : parts.map String.toList ≠ [] := by simpa using hne
  have h' : ∀ name ∈ parts.map String.toList, IsName name := by simpa using h
  -- `join` leaves out empty parts; a name is none.
  have hkept : parts.filter (· ≠ "") = parts := by
    rw [List.filter_eq_self]
    intro part hpart
    have hnil : part ≠ "" := by
      rintro rfl
      exact (h "" hpart).ne_nil rfl
    simpa using hnil
  have htext : String.ofList
      (Text.joinPieces '/' (((dir :: parts).filter (· ≠ "")).map String.toList)) =
      extended dir (parts.map String.toList) := by
    rw [extended]
    by_cases hdir : dir = ""
    · rw [List.filter_cons_of_neg (by simpa using hdir), hkept, if_pos hdir, List.nil_append]
    · rw [List.filter_cons_of_pos (by simpa using hdir), hkept, List.map_cons,
        Text.joinPieces_cons hne', if_neg hdir, List.append_assoc, List.singleton_append]
  rw [join, htext, normalize, if_neg (extended_ne_empty dir hne' h'), read_extended dir hne' h']

/-- **Names below a directory**: joined to any directory, absolute or not, names come after one text
    that only depends on the directory. -/
theorem toList_join_names :
    (join (dir :: parts)).toList = lead dir ++ Text.joinPieces '/' (parts.map String.toList) := by
  have hne' : parts.map String.toList ≠ [] := by simpa using hne
  -- Every segment of the directory is followed by a slash, as names come after it.
  rw [join_names dir hne h, toList_text _ (by simp [hne]),
    Text.joinPieces_append_eq_flatMap _ hne', lead, List.append_assoc]

/-- What is joined is in normal form, so further names come after a slash. -/
theorem lead_join : lead (join (dir :: parts)) = (join (dir :: parts)).toList ++ ['/'] := by
  have hne' : parts.map String.toList ≠ [] := by simpa using hne
  have h' : ∀ name ∈ parts.map String.toList, IsName name := by simpa using h
  have hnormal := normal_read (extended dir (parts.map String.toList))
  rw [read_extended dir hne' h'] at hnormal
  rw [join_names dir hne h]
  exact hnormal.lead_text (by simp [hne])

end Below

/-- A name below the path through some names is the path through one name more. -/
private theorem join_ofNames {name : String} (h : ∀ name ∈ names, IsName name)
    (hname : IsName name.toList) :
    join [ofNames names, name] = ofNames (names ++ [name.toList]) := by
  -- The text before the names is the path itself, each of its names with a slash after it.
  have hlead : lead (ofNames names) = '/' :: names.flatMap (· ++ ['/']) := by
    rw [lead, isAbsolute_ofNames, normalSegments_ofNames true h]
    rfl
  apply String.toList_inj.mp
  rw [toList_join_names (ofNames names) (List.cons_ne_nil name []) (by simpa using hname), hlead,
    toList_ofNames, Text.joinPieces_append_eq_flatMap names (List.cons_ne_nil name.toList [])]
  rfl

/-- A name below a path in normal form comes after it and a slash; the root has its slash already.
    -/
theorem Canonical.join_eq {dir name : String} (h : Canonical dir) (hname : IsName name.toList) :
    join [dir, name] = (if dir = "/" then "" else dir) ++ "/" ++ name := by
  obtain ⟨names, hnames, rfl⟩ := canonical_iff.mp h
  rw [join_ofNames hnames hname]
  apply String.toList_inj.mp
  by_cases hne : names = []
  · subst hne
    have hroot : ofNames [] = "/" := rfl
    rw [hroot, toList_ofNames]
    simp [Text.joinPieces]
  · have hroot : ofNames names ≠ "/" := by
      intro heq
      exact hne (ofNames_inj hnames (by simp) heq)
    rw [if_neg hroot, toList_ofNames, Text.joinPieces_append hne (by simp)]
    simp [toList_ofNames, Text.joinPieces]

end Path

namespace DotConfig

/-- `.config` is a name, though it starts with a dot. -/
private theorem isName_dotConfig : Path.IsName ".config".toList := by decide

/-- Where the `.config` of a directory in normal form is. -/
theorem file_of_canonical {dir : String} (h : Path.Canonical dir) :
    file dir = (if dir = "/" then "" else dir) ++ "/.config" := by
  rw [file, h.join_eq isName_dotConfig, String.append_assoc]
  rfl

/-- Different directories have different files `.config`. -/
theorem file_inj {dir other : String} (h : Path.Canonical dir)
    (hother : Path.Canonical other) (heq : file dir = file other) : dir = other := by
  obtain ⟨names, hnames, rfl⟩ := Path.canonical_iff.mp h
  obtain ⟨others, hothers, rfl⟩ := Path.canonical_iff.mp hother
  -- Both files are given by their names, and the last of these is the same.
  have hadd : ∀ {names : List (List Char)}, (∀ name ∈ names, Path.IsName name) →
      ∀ name ∈ names ++ [".config".toList], Path.IsName name := by
    intro names hnames name hmem
    rcases List.mem_append.mp hmem with hmem | hmem
    · exact hnames name hmem
    · rw [List.mem_singleton.mp hmem]
      exact isName_dotConfig
  rw [file, file, Path.join_ofNames hnames isName_dotConfig,
    Path.join_ofNames hothers isName_dotConfig] at heq
  have hnamesEq := Path.ofNames_inj (hadd hnames) (hadd hothers) heq
  rw [List.append_cancel_right hnamesEq]

end DotConfig

end KconfigQuery
