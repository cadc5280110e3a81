import KconfigQuery.Proofs.InquirySteps
import KconfigQuery.Proofs.NormalPaths
import KconfigQuery.Proofs.SettingsValidity

/-! # The kernel directory of a session

A session takes its kernel directory from the first source that says anything, and brings it to
normal form in the working directory.  What comes after an absolute source does not matter, as
long as that one is reached, or as long as the working directory is the same: a relative source
before it is looked up in the working directory.

* `resolveKernelDir_eq`             the first source decides
* `DifferBelow.first?_eq`           what is below an absolute source is not the first one
* `start_of_sources`                when a session is started, and in which kernel directory
* `start_relative_above_absolute`   a relative source before an absolute one -/

namespace KconfigQuery

/-- Where the working directory can be told, so can the place of every path. -/
theorem Environment.resolve_eq {env : Environment} {workingPath : String}
    (h : env.workingPath? = some workingPath) (path : String) :
    env.resolve path = .ok (Path.resolve workingPath path) := by
  unfold resolve
  split
  · next habsolute => rw [Path.resolve_of_isAbsolute habsolute "/" workingPath]
  · rw [h]

namespace Session

/-! ## Sources -/

/-- The sources of a kernel directory, in the order in which they are asked: the command line,
    `KDIR`, the settings and the working directory.  What is not given counts as empty. -/
def sources (env : Environment) (flag? setting? : Option String) : List String :=
  [flag?.getD "", env.kernelDir?.getD "", setting?.getD "", env.workingPath?.getD ""]

/-- The first source that is not empty. -/
def first? (sources : List String) : Option String :=
  sources.find? (· ≠ "")

/-- The sources differ only in what comes after an absolute one. -/
def DifferBelow (sources others : List String) : Prop :=
  ∃ above rest otherRest, sources = above ++ rest ∧ others = above ++ otherRest ∧
    ∃ source ∈ above, Path.isAbsolute source

private theorem ne_empty_of_isAbsolute {path : String} (h : Path.isAbsolute path) : path ≠ "" := by
  rintro rfl
  cases h

/-- An absolute source is reached, or one before it. -/
theorem DifferBelow.first?_eq {sources others : List String} (h : DifferBelow sources others) :
    first? sources = first? others := by
  obtain ⟨above, rest, otherRest, rfl, rfl, source, hmem, habsolute⟩ := h
  -- The first source is found in what the lists have in common, where the absolute one is.
  have hfound : (above.find? (· ≠ "")).isSome := by
    rw [List.find?_isSome]
    exact ⟨source, hmem, by simpa using ne_empty_of_isAbsolute habsolute⟩
  obtain ⟨first, hfirst⟩ := Option.isSome_iff_exists.mp hfound
  rw [first?, first?, List.find?_append, List.find?_append, hfirst]
  rfl

variable {tree : FileTree} {env : Environment} {workingPath : String}

/-- The kernel directory is the first source, looked up in the working directory. -/
theorem resolveKernelDir_eq (hpath : env.workingPath? = some workingPath)
    (habsolute : Path.isAbsolute workingPath) (flag? setting? : Option String) :
    ∃ source, first? (sources env flag? setting?) = some source ∧
      resolveKernelDir env flag? setting? = .ok (Path.resolve workingPath source) := by
  let given := [flag?.getD "", env.kernelDir?.getD "", setting?.getD ""]
  -- The working directory is the last source, and it is never empty.
  have hsources : sources env flag? setting? = given ++ [workingPath] := by
    rw [sources, hpath]
    rfl
  have hdir : resolveKernelDir env flag? setting? =
      env.resolve ((given.find? (· ≠ "")).getD "") := rfl
  rw [hsources, first?, List.find?_append, hdir, env.resolve_eq hpath]
  cases hgiven : given.find? (· ≠ "") with
  | some source => exact ⟨source, rfl, rfl⟩
  | none =>
    -- Nothing is given, and the working directory is named by the empty path.
    refine ⟨workingPath, ?_, ?_⟩
    · simp [ne_empty_of_isAbsolute habsolute]
    · rw [Option.getD_none, Path.resolve_empty habsolute workingPath]

/-- A canonical directory on the command line is taken as it is. -/
private theorem resolveKernelDir_of_canonical {dir : String} (h : Path.Canonical dir)
    (env : Environment)
    (setting? : Option String) : resolveKernelDir env (some dir) setting? = .ok dir := by
  rw [kernelDir_of_flag (ne_empty_of_isAbsolute h.isAbsolute),
    env.resolve_of_isAbsolute h.isAbsolute, h.resolve_eq]

/-! ## Starting -/

/-- What is known of a session's kernel directory. -/
structure Located (workingPath : String) (sources : List String) (kernelDir : String) : Prop where
  /-- The first source is looked up in the working directory. -/
  resolved : ∃ source, first? sources = some source ∧
    kernelDir = Path.resolve workingPath source
  canonical : Path.Canonical kernelDir
  /-- Given on the command line, the directory is taken as it is. -/
  kept : ∀ (env : Environment) (setting? : Option String),
    resolveKernelDir env (some kernelDir) setting? = .ok kernelDir
  file_eq : DotConfig.file kernelDir =
    (if kernelDir = "/" then "" else kernelDir) ++ "/.config"

/-- Where the settings can be loaded there is a session. -/
private theorem located_of_load (flags : SessionFlags) (hpath : env.workingPath? = some workingPath)
    (habsolute : Path.isAbsolute workingPath) {settings : Settings}
    (hload : Settings.load tree env .empty false = .ok settings) :
    ∃ session, start tree env flags = .ok session ∧
      Located workingPath (sources env flags.kdir? settings.kdir?) session.kernelDir := by
  obtain ⟨source, hfirst, hdir⟩ :=
    resolveKernelDir_eq hpath habsolute flags.kdir? settings.kdir?
  have hcanonical := Path.canonical_resolve habsolute source
  exact ⟨_, start_of_resolve flags hload hdir, ⟨source, hfirst, rfl⟩, hcanonical,
    resolveKernelDir_of_canonical hcanonical, DotConfig.file_of_canonical hcanonical⟩

/-- What is below an absolute source does not change the directory, if the working directory is
    not needed or is the same. -/
private theorem Located.kernelDir_eq {sources others : List String}
    {otherPath kernelDir otherDir : String}
    (h : Located workingPath sources kernelDir) (hother : Located otherPath others otherDir)
    (hbelow : DifferBelow sources others)
    (hpath : workingPath = otherPath ∨
      ∀ source, first? sources = some source → Path.isAbsolute source) :
    otherDir = kernelDir := by
  obtain ⟨source, hfirst, rfl⟩ := h.resolved
  obtain ⟨otherSource, hotherFirst, rfl⟩ := hother.resolved
  -- Both are made of the same first source.
  obtain rfl : source = otherSource := by
    rw [hbelow.first?_eq, hotherFirst] at hfirst
    exact (Option.some.inj hfirst).symm
  rcases hpath with rfl | habsolute
  · rfl
  · exact Path.resolve_of_isAbsolute (habsolute source hfirst) otherPath workingPath

/-- In a working directory that can be told, only the settings keep a session from being started. -/
private theorem start_eq_error_iff (flags : SessionFlags)
    (hpath : env.workingPath? = some workingPath)
    (habsolute : Path.isAbsolute workingPath) (error : Settings.Error) :
    start tree env flags = .error error ↔ Settings.load tree env .empty false = .error error := by
  constructor
  · intro hstart
    cases hload : Settings.load tree env .empty false with
    | error other =>
      rw [start_of_load_error flags hload] at hstart
      rw [Except.error.inj hstart]
    | ok settings =>
      -- With settings, a kernel directory is always found.
      obtain ⟨session, hsession, -⟩ := located_of_load flags hpath habsolute hload
      rw [hsession] at hstart
      cases hstart
  · exact start_of_load_error flags

/-- A session in a working directory that can be told.  It is started exactly if the settings are
    valid, whatever `KDIR` and the command line say.  Its kernel directory is the first source,
    brought to normal form in the working directory.  Sources below an absolute one do not change
    it, if the first source is absolute or the working directory stays the same.  Two sessions
    have the same file `.config` only if they have the same kernel directory. -/
theorem start_of_sources (tree : FileTree) (env : Environment) {workingPath : String}
    (hpath : env.workingPath? = some workingPath) (habsolute : Path.isAbsolute workingPath) :
    (∀ (kernelDir? : Option String) (flags : SessionFlags) (error : Settings.Error),
      start tree { env with kernelDir? } flags = .error error ↔
        Settings.load tree env .empty false = .error error) ∧
    ∀ (flags : SessionFlags) (settings : Settings),
      Settings.load tree env .empty false = .ok settings →
      ∃ session, start tree env flags = .ok session ∧
        Located workingPath (sources env flags.kdir? settings.kdir?) session.kernelDir ∧
        ∀ (otherTree : FileTree) (otherEnv : Environment) (otherPath : String)
          (otherFlags : SessionFlags) (otherSettings : Settings) (other : Session),
          otherEnv.workingPath? = some otherPath → Path.isAbsolute otherPath →
          Settings.load otherTree otherEnv .empty false = .ok otherSettings →
          start otherTree otherEnv otherFlags = .ok other →
          (DifferBelow (sources env flags.kdir? settings.kdir?)
              (sources otherEnv otherFlags.kdir? otherSettings.kdir?) →
            (workingPath = otherPath ∨ ∀ source,
              first? (sources env flags.kdir? settings.kdir?) = some source →
                Path.isAbsolute source) →
            other.kernelDir = session.kernelDir) ∧
          (DotConfig.file other.kernelDir = DotConfig.file session.kernelDir →
            other.kernelDir = session.kernelDir) := by
  constructor
  · intro kernelDir? flags error
    -- The settings are read without `KDIR`.
    have hload : Settings.load tree { env with kernelDir? } .empty false =
        Settings.load tree env .empty false := rfl
    rw [← hload]
    apply start_eq_error_iff flags _ habsolute
    exact hpath
  intro flags settings hload
  obtain ⟨session, hstart, hlocated⟩ := located_of_load flags hpath habsolute hload
  refine ⟨session, hstart, hlocated, ?_⟩
  intro otherTree otherEnv otherPath otherFlags otherSettings other hother hotherAbsolute
    hotherLoad hotherStart
  obtain ⟨other', hstart', hlocated'⟩ :=
    located_of_load otherFlags hother hotherAbsolute hotherLoad
  -- The other session is the one that is started.
  obtain rfl : other' = other := by
    rw [hotherStart] at hstart'
    exact (Except.ok.inj hstart').symm
  exact ⟨hlocated.kernelDir_eq hlocated', DotConfig.file_inj hlocated'.canonical hlocated.canonical⟩

/-! ## A relative source -/

/-- An environment with an absolute `KDIR`, in a working directory of the root. -/
def environmentIn (name : String) : Environment :=
  { Settings.rootEnvironment with
    kernelDir? := some "/abs"
    workingDir := .at [name]
    workingPath? := some ("/" ++ name) }

/-- Without a settings file the settings are the defaults. -/
private theorem load_environmentIn {tree : FileTree} (h : tree.node? ["s"] = none) (name : String) :
    Settings.load tree (environmentIn name) .empty false = .ok ⟨none, false⟩ :=
  Settings.load_of_noRootFile (Environment.settingsFile_of_isAbsolute rfl (by decide)) h

/-- A relative directory is given where `KDIR` is absolute. -/
theorem start_of_sources_relative_flag :
    (environmentIn "w").workingPath? = some "/w" ∧ Path.isAbsolute "/w" ∧
      ∃ session,
        start (FileTree.empty.put ["w"] .directory) (environmentIn "w") ⟨some "k/../j/", false⟩ =
          .ok session ∧
        session.kernelDir = "/w/j" ∧ DotConfig.file session.kernelDir = "/w/j/.config" := by
  have hpath : (environmentIn "w").workingPath? = some "/w" := by decide
  have habsolute : Path.isAbsolute "/w" := by decide
  obtain ⟨session, hstart, hlocated, -⟩ :=
    (start_of_sources (FileTree.empty.put ["w"] .directory) (environmentIn "w") hpath habsolute).2
      ⟨some "k/../j/", false⟩ ⟨none, false⟩ (load_environmentIn rfl "w")
  obtain ⟨source, hfirst, hresolved⟩ := hlocated.resolved
  have hsource : first? (sources (environmentIn "w") (some "k/../j/") none) = some "k/../j/" := by
    decide
  -- The first source is the flag, and it is looked up in the working directory.
  obtain rfl : "k/../j/" = source := Option.some.inj (hsource.symm.trans hfirst)
  have hdir : session.kernelDir = "/w/j" := hresolved.trans (by decide)
  refine ⟨hpath, habsolute, session, hstart, hdir, ?_⟩
  rw [hlocated.file_eq, hdir]
  decide

/-- An absolute source below a relative one does not keep the working directory from being
    asked. -/
theorem start_relative_above_absolute :
    let tree := (FileTree.empty.put ["a"] .directory).put ["b"] .directory
    let flags : SessionFlags := ⟨some "k", false⟩
    (∀ name ∈ ["a", "b"],
      Settings.load tree (environmentIn name) .empty false = .ok ⟨none, false⟩) ∧
    DifferBelow (sources (environmentIn "a") flags.kdir? none)
      (sources (environmentIn "b") flags.kdir? none) ∧
    start tree (environmentIn "a") flags = .ok ⟨"/a/k", .console false⟩ ∧
    start tree (environmentIn "b") flags = .ok ⟨"/b/k", .console false⟩ := by
  intro tree flags
  have hload (name : String) :
      Settings.load tree (environmentIn name) .empty false = .ok ⟨none, false⟩ :=
    load_environmentIn rfl name
  refine ⟨fun name _ => hload name, ?_, ?_, ?_⟩
  · exact ⟨["k", "/abs", ""], ["/a"], ["/b"], by decide, by decide, "/abs", by decide, by decide⟩
  · exact start_of_resolve flags (hload "a") (by cbv)
  · exact start_of_resolve flags (hload "b") (by cbv)

end Session

end KconfigQuery
