import Mathlib.Data.List.Perm.Basic
import KconfigQuery.Proofs.ArchitectureSearch
import KconfigQuery.Proofs.WrittenFiles

/-! # Which entries decide an architecture

The search for an architecture takes the first listed entry that has a `Kconfig` and whose option
is built in, or else the first alias with an option that is.  So all other entries may come and go
without changing its answer.  And where more entries have a `Kconfig` and more options are built in,
something that the search stops at is still there: it stops no later than before, so an answer is
never lost.

* `answer?_eq`              the answer is the architecture at the rank of the search
* `answer?_congr`           only the entries that qualify count, and their order
* `filter_eq_of_perm`       the order does not count where at most one name qualifies
* `rank?_le`                with more to stop at, the search stops no later
* `choice_of_qualifying`    what two situations with their entries have in common -/

namespace KconfigQuery

/-- All that stands at a path in the first file system stands there in the second. -/
structure FileSystem.Extends (files more : FileSystem) : Prop where
  contents : ∀ path text, files.contents path = .ok text → more.contents path = .ok text
  isFile : ∀ path, files.isFile path = true → more.isFile path = true
  isDirectory : ∀ path, files.isDirectory path = true → more.isDirectory path = true
  isSymbolicLink : ∀ path, files.isSymbolicLink path = true → more.isSymbolicLink path = true

namespace Store

open Architecture
open DotConfig (Options)

/-- What an inference finds: a file system, what the store keeps, and the kernel directory. -/
structure Situation where
  files : FileSystem
  store : Store
  dir : String

/-- What the search goes through. -/
inductive Candidate where
  | entry (arch : String)
  | fallback (row : Alias)

/-- The architecture that a candidate stands for. -/
def Candidate.arch : Candidate → String
  | entry arch => arch
  | fallback row => row.arch

/-- The listed entries, and the aliases after them. -/
def candidates (entries : List String) : List Candidate :=
  entries.map .entry ++ aliases.map .fallback

namespace Situation

variable (situation : Situation)

/-- The options of the kernel directory: the kept ones, or else what its file gives. -/
def options : Options :=
  known situation.files situation.store situation.dir

/-- What the inference answers. -/
def answer? : Option String :=
  (situation.store.architecture situation.files situation.dir).answer

/-- The directory `arch` is there and is listed with these entries. -/
structure Lists (entries : List String) : Prop where
  isDirectory : situation.files.isDirectory (directory situation.dir)
  listed : situation.files.listDirectory (directory situation.dir) = .ok entries

/-- The entry has a `Kconfig`, inside the kernel directory or behind its link `source`. -/
def hasKconfig (arch : String) : Bool :=
  Architecture.hasKconfig situation.files situation.dir arch

/-- The entry has a `Kconfig`, and its option is built in. -/
def qualifies (arch : String) : Bool :=
  situation.hasKconfig arch && DotConfig.builtIn situation.options (option arch)

/-- The search stops at the candidate. -/
def stopsAt : Candidate → Bool
  | .entry arch => situation.qualifies arch
  | .fallback row => row.options.any (DotConfig.builtIn situation.options)

/-- The position of the candidate at which the search stops, if it does. -/
def rank? (entries : List String) : Option Nat :=
  (candidates entries).findIdx? situation.stopsAt

/-! ## The answer -/

variable {situation} {entries : List String}

/-- The answer is the first entry that qualifies, or else the first alias with an option that is
    built in. -/
private theorem answer?_eq_or (h : situation.Lists entries) :
    situation.answer? = (entries.find? situation.qualifies).or
      (selectedAlias? (DotConfig.builtIn situation.options)) := by
  -- An entry qualifies exactly if the search selects it.
  have hselects : selects situation.files situation.dir situation.options = situation.qualifies :=
    rfl
  rw [answer?, architecture, if_pos h.isDirectory, h.listed]
  simp only [choose_eq]
  rw [← options, hselects]

/-- Entries and aliases are searched as one list of candidates. -/
private theorem answer?_eq_find? (h : situation.Lists entries) :
    situation.answer? = ((candidates entries).find? situation.stopsAt).map Candidate.arch := by
  rw [answer?_eq_or h, selectedAlias?, candidates, List.find?_append, List.find?_map,
    List.find?_map]
  -- The entries are searched before the aliases.
  have hentry : situation.stopsAt ∘ Candidate.entry = situation.qualifies := rfl
  rw [hentry]
  cases entries.find? situation.qualifies with
  | some arch => rfl
  | none =>
    rw [Option.map_none, Option.none_or, Option.none_or, Option.map_map]
    rfl

/-- The answer is the architecture of the candidate at which the search stops. -/
theorem answer?_eq (h : situation.Lists entries) :
    situation.answer? = (situation.rank? entries).bind fun position =>
      ((candidates entries)[position]?).map Candidate.arch := by
  rw [answer?_eq_find? h, rank?, List.find?_eq_bind_findIdx?_getElem?, Option.map_bind]
  rfl

/-- There is an answer exactly if the search stops somewhere. -/
private theorem isSome_answer? (h : situation.Lists entries) :
    situation.answer?.isSome = (situation.rank? entries).isSome := by
  rw [answer?_eq_find? h, Option.isSome_map, rank?, List.findIdx?_isSome, Bool.eq_iff_iff,
    List.find?_isSome, List.any_eq_true]

/-! ## Entries that do not qualify -/

variable {other : Situation} {others : List String}

/-- The answer depends on the entries that qualify, on their order and on the options. -/
theorem answer?_congr (h : situation.Lists entries) (hother : other.Lists others)
    (hentries : entries.filter situation.qualifies = others.filter other.qualifies)
    (hoptions : ∀ option, situation.options.get? option = other.options.get? option) :
    situation.answer? = other.answer? := by
  have hbuiltIn : DotConfig.builtIn situation.options = DotConfig.builtIn other.options := by
    funext option
    rw [DotConfig.builtIn, DotConfig.builtIn, hoptions]
  -- The first entry that qualifies is the first of those that do.
  rw [answer?_eq_or h, answer?_eq_or hother, ← List.head?_filter, hentries, List.head?_filter,
    hbuiltIn]

/-- A list of one name, however often, is the same in any order. -/
theorem filter_eq_of_perm {p : String → Bool} (h : entries.Perm others)
    (hone : ∀ first ∈ entries, ∀ second ∈ entries, p first → p second → first = second) :
    entries.filter p = others.filter p := by
  have hperm : (entries.filter p).Perm (others.filter p) := h.filter p
  cases hfilter : entries.filter p with
  -- Nothing passes in either order.
  | nil =>
    rw [hfilter] at hperm
    exact hperm.nil_eq
  | cons first rest =>
    -- All that is left is the first name.
    have hall : ∀ name ∈ entries.filter p, name = first := by
      intro name hname
      have hfirst : first ∈ entries.filter p := hfilter ▸ List.mem_cons_self
      rw [List.mem_filter] at hname hfirst
      exact hone name hname.1 first hfirst.1 hname.2 hfirst.2
    -- A list of one name is told by its length, and that does not change.
    have hsame := List.eq_replicate_of_mem hall
    rw [hsame] at hperm
    rw [← hfilter, hsame]
    exact (List.perm_replicate.mp hperm.symm).symm

/-! ## More to stop at -/

/-- Where every `Kconfig` and every option that is built in is still there, so is every candidate to
    stop at. -/
private theorem stopsAt_of_stopsAt
    (hkconfig : ∀ arch ∈ entries, situation.hasKconfig arch → other.hasKconfig arch)
    (hoptions : ∀ option,
      situation.options.get? option = some "y" → other.options.get? option = some "y")
    {candidate : Candidate} (hmem : candidate ∈ candidates entries)
    (hstops : situation.stopsAt candidate) : other.stopsAt candidate := by
  have hbuiltIn : ∀ option, DotConfig.builtIn situation.options option →
      DotConfig.builtIn other.options option := by
    intro option hoption
    exact decide_eq_true (hoptions option (of_decide_eq_true hoption))
  cases candidate with
  | entry arch =>
    have harch : arch ∈ entries := by simpa [candidates] using hmem
    rw [stopsAt, qualifies, Bool.and_eq_true] at hstops ⊢
    exact ⟨hkconfig arch harch hstops.1, hbuiltIn _ hstops.2⟩
  | fallback row =>
    rw [stopsAt, List.any_eq_true] at hstops ⊢
    obtain ⟨option, hoption, hvalue⟩ := hstops
    exact ⟨option, hoption, hbuiltIn option hvalue⟩

/-- If all candidates to stop at are still there, the search stops no later. -/
theorem rank?_le
    (hstops : ∀ candidate ∈ candidates entries,
      situation.stopsAt candidate → other.stopsAt candidate)
    {position : Nat} (hrank : situation.rank? entries = some position) :
    ∃ otherPosition ≤ position, other.rank? entries = some otherPosition := by
  obtain ⟨hlt, hstop, -⟩ := List.findIdx?_eq_some_iff_getElem.mp hrank
  have hotherStop : other.stopsAt (candidates entries)[position] :=
    hstops _ (List.getElem_mem hlt) hstop
  cases hother : other.rank? entries with
  | none =>
    -- The search would have gone past the candidate.
    have hnot := List.findIdx?_eq_none_iff.mp hother _ (List.getElem_mem hlt)
    rw [hnot] at hotherStop
    cases hotherStop
  | some otherPosition =>
    refine ⟨otherPosition, ?_, rfl⟩
    -- The search goes past all candidates before the one at which it stops.
    by_contra hgt
    obtain ⟨_, -, hpassed⟩ := List.findIdx?_eq_some_iff_getElem.mp hother
    exact hpassed position (Nat.lt_of_not_le hgt) hotherStop

/-- The other situation has an answer whenever this one has, and the search stops no later. -/
structure AnsweredAsSoon (situation other : Situation) (entries : List String) : Prop where
  answered : situation.answer?.isSome → other.answer?.isSome
  rank_le : ∀ position, situation.rank? entries = some position →
    ∃ otherPosition ≤ position, other.rank? entries = some otherPosition

/-- With more to stop at, no answer is lost. -/
private theorem answeredAsSoon (h : situation.Lists entries) (hother : other.Lists entries)
    (hkconfig : ∀ arch ∈ entries, situation.hasKconfig arch → other.hasKconfig arch)
    (hoptions : ∀ option,
      situation.options.get? option = some "y" → other.options.get? option = some "y") :
    AnsweredAsSoon situation other entries := by
  have hrank : ∀ position, situation.rank? entries = some position →
      ∃ otherPosition ≤ position, other.rank? entries = some otherPosition := fun position =>
    rank?_le fun candidate hmem => stopsAt_of_stopsAt hkconfig hoptions hmem
  refine ⟨?_, hrank⟩
  intro hanswer
  rw [isSome_answer? h] at hanswer
  obtain ⟨position, hposition⟩ := Option.isSome_iff_exists.mp hanswer
  obtain ⟨otherPosition, -, hotherPosition⟩ := hrank position hposition
  rw [isSome_answer? hother, hotherPosition, Option.isSome_some]

/-- An entry keeps its `Kconfig` when files and links are added. -/
private theorem hasKconfig_of_extends (hfiles : situation.files.Extends other.files)
    (hdir : situation.dir = other.dir) {arch : String} (h : situation.hasKconfig arch) :
    other.hasKconfig arch := by
  rw [hasKconfig, Architecture.hasKconfig, Bool.or_eq_true, Bool.and_eq_true] at h ⊢
  rw [← hdir]
  -- The file is inside the kernel directory, or behind the link, which is still one.
  rcases h with h | ⟨hlink, h⟩
  · exact .inl (hfiles.isFile _ h)
  · exact .inr ⟨hfiles.isSymbolicLink _ hlink, hfiles.isFile _ h⟩

/-! ## Two situations -/

/-- Two situations in which the directory `arch` can be listed.  The answer is the architecture of
    the candidate at the rank.  With the same values of options, the answers are the same if the
    same entries qualify in the same order, and also if the entries are permuted and at most one
    name qualifies.  With the same entries, if every `Kconfig` is still there and every option that
    is built in still is, an answer is not lost and the rank is no larger; so it is when files and
    links are added. -/
theorem choice_of_qualifying (situation other : Situation) {entries others : List String}
    (h : situation.Lists entries) (hother : other.Lists others) :
    (situation.answer? = (situation.rank? entries).bind fun position =>
      ((candidates entries)[position]?).map Candidate.arch) ∧
    ((∀ option, situation.options.get? option = other.options.get? option) →
      (entries.filter situation.qualifies = others.filter other.qualifies →
        situation.answer? = other.answer?) ∧
      (entries.Perm others →
        (∀ arch ∈ entries, situation.hasKconfig arch = other.hasKconfig arch) →
        (∀ first ∈ entries, ∀ second ∈ entries,
          situation.qualifies first → situation.qualifies second → first = second) →
        situation.answer? = other.answer?)) ∧
    (entries = others →
      (∀ option,
        situation.options.get? option = some "y" → other.options.get? option = some "y") →
      ((∀ arch ∈ entries, situation.hasKconfig arch → other.hasKconfig arch) →
        AnsweredAsSoon situation other entries) ∧
      (situation.dir = other.dir → situation.files.Extends other.files →
        AnsweredAsSoon situation other entries)) := by
  refine ⟨answer?_eq h, ?_, ?_⟩
  · intro hoptions
    refine ⟨fun hentries => answer?_congr h hother hentries hoptions, ?_⟩
    intro hperm hkconfig hone
    -- The same entries qualify, and their order does not count.
    have hqualifies : ∀ arch ∈ others, situation.qualifies arch = other.qualifies arch := by
      intro arch harch
      rw [qualifies, qualifies, hkconfig arch (hperm.mem_iff.mpr harch), DotConfig.builtIn,
        DotConfig.builtIn, hoptions]
    have hentries : entries.filter situation.qualifies = others.filter other.qualifies := by
      rw [filter_eq_of_perm hperm hone, List.filter_congr hqualifies]
    exact answer?_congr h hother hentries hoptions
  · rintro rfl hoptions
    refine ⟨fun hkconfig => answeredAsSoon h hother hkconfig hoptions, ?_⟩
    intro hdir hfiles
    exact answeredAsSoon h hother (fun arch _ => hasKconfig_of_extends hfiles hdir) hoptions

/-- A build directory for `x86` without sources is answered for by an alias.  With a link to the
    sources the entry itself is found, also where another one is listed before it. -/
theorem choice_of_qualifying_source_link :
    let store : Store :=
      ⟨.ofList [("", .ofList [("CONFIG_X86", "y"), ("CONFIG_X86_64", "y")])]⟩
    let files : FileSystem := {
      contents := fun _ => .ok ""
      listDirectory := fun _ => .ok ["x86"]
      isFile := fun path => path = "source/arch/x86/Kconfig"
      isDirectory := fun path => path = "arch"
      isSymbolicLink := fun _ => false }
    let alone : Situation := ⟨files, store, ""⟩
    let linked : Situation := ⟨{ files with isSymbolicLink := (· = "source") }, store, ""⟩
    let relisted : Situation :=
      ⟨{ linked.files with listDirectory := fun _ => .ok ["arm", "x86"] }, store, ""⟩
    alone.Lists ["x86"] ∧ linked.Lists ["x86"] ∧ relisted.Lists ["arm", "x86"] ∧
      alone.answer? = some "x86_64" ∧ alone.rank? ["x86"] = some 3 ∧
      linked.answer? = some "x86" ∧ (∃ position ≤ 3, linked.rank? ["x86"] = some position) ∧
      relisted.answer? = some "x86" := by
  intro store files alone linked relisted
  have halone : alone.Lists ["x86"] := ⟨by decide +kernel, rfl⟩
  have hlinked : linked.Lists ["x86"] := ⟨by decide +kernel, rfl⟩
  have hrelisted : relisted.Lists ["arm", "x86"] := ⟨by decide +kernel, rfl⟩
  have hrank : alone.rank? ["x86"] = some 3 := by decide +kernel
  have hlinkedRank : linked.rank? ["x86"] = some 0 := by decide +kernel
  have hsooner : AnsweredAsSoon alone linked ["x86"] := by
    -- Only a link has been added.
    have hextends : alone.files.Extends linked.files := by
      refine ⟨fun _ _ h => h, fun _ h => h, fun _ h => h, ?_⟩
      intro path hpath
      cases hpath
    exact ((choice_of_qualifying alone linked halone hlinked).2.2 rfl fun _ h => h).2 rfl hextends
  have hlinkedAnswer : linked.answer? = some "x86" := by
    rw [(choice_of_qualifying linked relisted hlinked hrelisted).1, hlinkedRank]
    rfl
  refine ⟨halone, hlinked, hrelisted, ?_, hrank, hlinkedAnswer, hsooner.rank_le 3 hrank, ?_⟩
  · rw [(choice_of_qualifying alone linked halone hlinked).1, hrank]
    rfl
  · rw [← hlinkedAnswer]
    refine (((choice_of_qualifying linked relisted hlinked hrelisted).2.1 fun _ => rfl).1 ?_).symm
    -- Only the entry with the `Kconfig` qualifies in either listing.
    decide +kernel

end Situation

end Store

end KconfigQuery
