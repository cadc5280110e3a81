import KconfigQuery.Text.Cut

/-! # Path texts

Paths are slash-separated texts and are handled as texts: no file is consulted.  `Path.read`
takes a text to its normal form, in which empty segments and `.` are gone and every `..` has
consumed the segment before it; a `..` with nothing to consume is dropped in a rooted path and
kept at the front of any other.  `Path.text` writes a normal form out.

* `normal_reversedSegments`   the segments of a text in normal form are normal
* `reversedSegments_append`   segments are read from the left, each text after the one before it -/

namespace KconfigQuery

/-- A path in normal form. -/
structure Path where
  /-- The path starts at the root. -/
  rooted : Bool
  segments : List (List Char)
  /-- The text ended with a slash. -/
  slashed : Bool
deriving DecidableEq

namespace Path

/-- The segment that names the parent directory. -/
def up : List Char := ['.', '.']

/-- The segment that names the directory itself. -/
def here : List Char := ['.']

/-! ## Normal segments -/

/-- Add one segment to normal segments, which are given with the last one first. -/
def push (rooted : Bool) (done : List (List Char)) (segment : List Char) : List (List Char) :=
  if segment = [] ∨ segment = here then done
  else if segment = up then
    match done with
    | [] => if rooted then [] else [up]
    | last :: before => if last = up then up :: done else before
  else segment :: done

/-- The normal segments of a text, the last one first. -/
def reversedSegments (rooted : Bool) (cs : List Char) : List (List Char) :=
  (Text.pieces '/' cs).foldl (push rooted) []

/-- The normal segments of a text. -/
def normalSegments (rooted : Bool) (cs : List Char) : List (List Char) :=
  (reversedSegments rooted cs).reverse

/-- Normal segments, the last one first: none is empty, `.` or holds a slash, and `..` stands
    only at the front of a path that is not rooted. -/
def Normal (rooted : Bool) : List (List Char) → Prop
  | [] => True
  | segment :: before =>
    segment ≠ [] ∧ segment ≠ here ∧ '/' ∉ segment ∧
      (segment = up → rooted = false ∧ ∀ s ∈ before, s = up) ∧ Normal rooted before

/-- **One more segment** keeps segments normal, whether it is added, dropped or takes the last one
    away. -/
theorem Normal.push {rooted : Bool} {done : List (List Char)} (h : Normal rooted done)
    {segment : List Char} (hs : '/' ∉ segment) : Normal rooted (push rooted done segment) := by
  unfold Path.push
  split
  · exact h
  · next hne =>
    simp only [not_or] at hne
    split
    · next hup =>
      cases done with
      | nil =>
        -- With nothing to consume, `..` is dropped or kept, as the path is rooted or not.
        cases rooted with
        | true => trivial
        | false => exact ⟨by decide, by decide, by decide, fun _ => ⟨rfl, by simp⟩, trivial⟩
      | cons last before =>
        simp only
        split
        · next hlast =>
          -- A `..` that was kept is not consumed by another one.
          have hl := h.2.2.2.1 hlast
          refine ⟨by decide, by decide, by decide, fun _ => ⟨hl.1, ?_⟩, h⟩
          intro s hs
          rcases List.mem_cons.mp hs with rfl | hs
          · exact hlast
          · exact hl.2 s hs
        · exact h.2.2.2.2
    · next hup => exact ⟨hne.1, hne.2, hs, fun e => absurd e hup, h⟩

/-- The segments that are left of any text are normal. -/
theorem normal_reversedSegments (rooted : Bool) (cs : List Char) :
    Normal rooted (reversedSegments rooted cs) := by
  -- Induction on the pieces of the text, added to segments that are normal already.
  have key : ∀ (ps done : List (List Char)), (∀ p ∈ ps, '/' ∉ p) → Normal rooted done →
      Normal rooted (ps.foldl (push rooted) done) := by
    intro ps
    induction ps with
    | nil => intro done _ h; exact h
    | cons p ps ih =>
      intro done hp h
      exact ih _ (fun q hq => hp q (List.mem_cons_of_mem _ hq)) (h.push (hp p (by simp)))
  exact key _ _ (fun _ hp => Text.notMem_of_mem_pieces hp) trivial

/-- Segments after a slash are added to those before it. -/
theorem reversedSegments_append (rooted : Bool) (cs ds : List Char) :
    reversedSegments rooted (cs ++ '/' :: ds) =
      (Text.pieces '/' ds).foldl (push rooted) (reversedSegments rooted cs) := by
  simp [reversedSegments, Text.pieces_append]

/-! ## Reading and writing -/

/-- The text starts with a slash. -/
def isAbsolute (text : String) : Bool :=
  text.toList.head? == some '/'

/-- The normal form of a text. -/
def read (text : String) : Path :=
  let rooted := isAbsolute text
  { rooted
    segments := normalSegments rooted text.toList
    slashed := text.toList.getLast? == some '/' }

/-- The text of a normal form: `/` for the bare root, `.` for a path without segments. -/
def text (path : Path) : String :=
  let body := Text.joinPieces '/' path.segments
  let slash := if path.slashed then ['/'] else []
  String.ofList <|
    if path.rooted then
      if path.segments = [] then ['/'] else '/' :: body ++ slash
    else if path.segments = [] then here ++ slash
    else body ++ slash

/-- The normal form of a text as a text; an empty text names the directory itself. -/
def normalize (text : String) : String :=
  if text = "" then "." else (read text).text

/-- The texts joined by slashes and brought to normal form.  Empty texts are left out. -/
def join (parts : List String) : String :=
  normalize (String.ofList (Text.joinPieces '/' ((parts.filter (· ≠ "")).map String.toList)))

/-- The absolute path that a text names, seen from a working directory.  No slash is kept at
    the end. -/
def resolve (workingDir path : String) : String :=
  let full :=
    if isAbsolute path then path
    else if path = "" then workingDir
    else workingDir ++ "/" ++ path
  { read full with slashed := false }.text

/-- The text before the last segment, without the slash between them.  Slashes at the very end
    do not count, and the text is not brought to normal form. -/
def parent (path : String) : String :=
  match path.toList with
  | [] => "."
  | first :: rest =>
    let rooted := first == '/'
    match (rest.reverse.dropWhile (· == '/')).dropWhile (· != '/') with
    | [] => if rooted then "/" else "."
    | _ :: before =>
      if rooted && before.isEmpty then "//" else String.ofList (first :: before.reverse)

end Path

end KconfigQuery
