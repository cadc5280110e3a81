import KconfigQuery.Proofs.SettingsValidity

/-! # Which settings are loaded

For each setting one text is used: the one that is given, even if it is empty, or else the stored
one.  Nothing else has a say in the setting.  A text that is refused stops a strict loading, and
the kernel directory is judged first; a lenient loading takes the default for it, and not the
stored text that it hides.  A file that cannot be read at all stops both.

* `text_or`                 the text that is used
* `Raw.check_eq_error_iff`  what stops a strict check
* `Raw.selected_of_check`   what a lenient check takes
* `load_by_field`           loading, field by field
* `load_of_mem_items`       a line with a defect stops a strict and a lenient loading
* `load_of_listLength`      a file that stops a lenient loading though no line of it has one -/

namespace KconfigQuery.Settings

open Text (Wide)

variable {given raw : Raw} {key : Key}

/-! ## The text that is used -/

/-- The text that is used for a setting: the given one or else the stored one.  A setting that has
    neither counts as empty. -/
def used (given raw : Raw) (key : Key) : String :=
  (((given.get? key).or (raw.get? key)).map Wide.text).getD ""

/-- **The text that is used** is the one that a record with the given settings over the stored ones
    has. -/
theorem text_or (given raw : Raw) (key : Key) : (given.or raw).text key = used given raw key := by
  rw [Raw.text, Raw.or, Table.get?_overlay]
  rfl

/-- What is given hides what is stored. -/
private theorem used_of_given {text : Wide} (h : given.get? key = some text) (raw : Raw) :
    used given raw key = text.text := by
  simp [used, h]

/-! ## Judging the texts -/

/-- A refused text has the one problem of its setting. -/
private theorem Key.problem?_eq_some_iff {text : String} {problem : Problem} :
    key.problem? text = some problem ↔ key.problem? text ≠ none ∧ problem = key.problem := by
  constructor
  · intro h
    exact ⟨by simp [h], Key.eq_problem_of_problem? h⟩
  · rintro ⟨hne, rfl⟩
    obtain ⟨problem, hproblem⟩ := Option.ne_none_iff_exists'.mp hne
    rw [hproblem, Key.eq_problem_of_problem? hproblem]

/-- A strict check stops at the first text that is refused. -/
theorem Raw.check_eq_error_iff {problem : Problem} :
    raw.check false = .error problem ↔
      Key.kdir.problem? (raw.text .kdir) = some problem ∨
        Key.kdir.problem? (raw.text .kdir) = none ∧
          Key.verbose.problem? (raw.text .verbose) = some problem := by
  unfold Raw.check
  -- The kernel directory is judged first, so its problem hides one of the verbosity.
  simp only [Key.problem?]
  cases kdirOf (raw.text .kdir) <;> cases verboseOf (raw.text .verbose) <;> simp [settle]

/-- The settings are what the texts mean, each by itself; what means nothing gives the default. -/
structure Selected (text : Key → String) (settings : Settings) : Prop where
  kdir?_iff : ∀ dir, settings.kdir? = some dir ↔
    text .kdir = dir ∧ dir ≠ "" ∧ Path.isAbsolute dir
  verbose_iff : settings.verbose = true ↔ text .verbose = "true"

/-- **A lenient check** takes for each setting what its text means. -/
theorem Raw.selected_of_check {settings : Settings} (h : raw.check true = .ok settings) :
    Selected raw.text settings := by
  constructor
  · intro dir
    rw [kdir?_of_check h, kdirOf_eq_some_iff]
  · -- Whatever the kernel directory is, a lenient check goes on to the verbosity.
    obtain ⟨kdir?, hkdir⟩ : ∃ kdir?, settle true none (kdirOf (raw.text .kdir)) = .ok kdir? := by
      cases kdirOf (raw.text .kdir) <;> simp [settle]
    rw [Raw.check, hkdir] at h
    cases hverbose : verboseOf (raw.text .verbose) with
    | ok verbose =>
      rw [hverbose] at h
      cases h
      exact verboseOf_eq_ok_iff hverbose
    | error problem =>
      -- A text that is refused is no truth value.
      have hne : raw.text .verbose ≠ "true" := by
        intro htrue
        rw [htrue] at hverbose
        cases hverbose
      rw [hverbose] at h
      cases h
      simp [hne]

/-- Settings are told apart by the texts that are used. -/
private theorem Selected.kdir?_eq {text other : Key → String} {settings others : Settings}
    (h : Selected text settings) (hother : Selected other others) (heq : text .kdir = other .kdir) :
    settings.kdir? = others.kdir? := by
  apply Option.ext
  intro dir
  rw [h.kdir?_iff, hother.kdir?_iff, heq]

/-- The verbosity is told by the text that is used for it. -/
private theorem Selected.verbose_eq {text other : Key → String} {settings others : Settings}
    (h : Selected text settings) (hother : Selected other others)
    (heq : text .verbose = other .verbose) : settings.verbose = others.verbose := by
  rw [Bool.eq_iff_iff, h.verbose_iff, hother.verbose_iff, heq]

/-! ## Loading -/

variable {tree : FileTree} {env : Environment}

/-- A file that can be read leaves a loading to the check. -/
private theorem load_eq_of_stored (h : stored tree env = .ok raw) (given : Raw) (lenient : Bool) :
    load tree env given lenient = ((given.or raw).check lenient).mapError .invalid := by
  rw [load, h]

/-- A lenient loading of a file that can be read succeeds. -/
private theorem load_lenient (h : stored tree env = .ok raw) (given : Raw) :
    ∃ settings, load tree env given true = .ok settings ∧ Selected (used given raw) settings := by
  obtain ⟨settings, hcheck⟩ := Raw.check_lenient (given.or raw)
  refine ⟨settings, ?_, ?_⟩
  · rw [load_eq_of_stored h, hcheck]
    rfl
  · have htext : (given.or raw).text = used given raw := funext fun key => text_or given raw key
    rw [← htext]
    exact Raw.selected_of_check hcheck

/-- A strict loading of what can be read reports the first text that is refused. -/
private theorem load_strict_eq_error_iff (h : stored tree env = .ok raw) (given : Raw)
    {error : Error} :
    load tree env given false = .error error ↔
      Key.kdir.problem? (used given raw .kdir) ≠ none ∧ error = .invalid .relativeKdir ∨
        Key.kdir.problem? (used given raw .kdir) = none ∧
          Key.verbose.problem? (used given raw .verbose) ≠ none ∧
            error = .invalid .notBoolean := by
  -- The file has been read, so only the check can stop the loading.
  have herror : load tree env given false = .error error ↔
      ∃ problem, (given.or raw).check false = .error problem ∧ error = .invalid problem := by
    rw [load_eq_of_stored h]
    cases (given.or raw).check false <;> simp [Except.mapError, eq_comm]
  rw [herror]
  simp only [Raw.check_eq_error_iff, text_or, Key.problem?_eq_some_iff, Key.problem]
  constructor
  · rintro ⟨problem, ⟨hkdir, rfl⟩ | ⟨hkdir, hverbose, rfl⟩, rfl⟩
    · exact .inl ⟨hkdir, rfl⟩
    · exact .inr ⟨hkdir, hverbose, rfl⟩
  · rintro (⟨hkdir, rfl⟩ | ⟨hkdir, hverbose, rfl⟩)
    · exact ⟨_, .inl ⟨hkdir, rfl⟩, rfl⟩
    · exact ⟨_, .inr ⟨hkdir, hverbose, rfl⟩, rfl⟩

/-- What a strict loading gives, a lenient one gives as well. -/
private theorem load_strict_eq_ok (h : stored tree env = .ok raw) {settings : Settings}
    (hload : load tree env given false = .ok settings) :
    load tree env given true = .ok settings := by
  rw [load_eq_of_stored h] at hload ⊢
  cases hcheck : (given.or raw).check false with
  | error problem =>
    rw [hcheck] at hload
    cases hload
  | ok checked =>
    rw [hcheck] at hload
    rw [Raw.check_strict hcheck]
    exact hload

/-- Loading settings.  What stops the reading of the file stops it strictly and leniently.  Of a
    file that can be read, a strict loading reports a used text that is refused, the kernel
    directory's first, and never one for which a given text is accepted.  A lenient loading always
    succeeds, and each setting depends on its own used text alone.  Where both succeed, they
    agree. -/
theorem load_by_field (tree : FileTree) (env : Environment) (given : Raw) :
    (∀ error lenient, stored tree env = .error error →
      load tree env given lenient = .error error) ∧
    ∀ raw, stored tree env = .ok raw →
      (∀ error, load tree env given false = .error error ↔
        (used given raw .kdir ≠ "" ∧ ¬Path.isAbsolute (used given raw .kdir)) ∧
            error = .invalid .relativeKdir ∨
          (used given raw .kdir = "" ∨ Path.isAbsolute (used given raw .kdir)) ∧
            (used given raw .verbose ≠ "" ∧ used given raw .verbose ≠ "true" ∧
              used given raw .verbose ≠ "false") ∧
            error = .invalid .notBoolean) ∧
      (∀ key text, given.get? key = some text → Accepted key.name text.text →
        load tree env given false ≠ .error (.invalid key.problem)) ∧
      (∀ settings, load tree env given false = .ok settings →
        load tree env given true = .ok settings) ∧
      ∃ settings, load tree env given true = .ok settings ∧ Selected (used given raw) settings ∧
        ∀ (otherTree : FileTree) (otherEnv : Environment) (otherGiven otherRaw : Raw)
          (others : Settings), stored otherTree otherEnv = .ok otherRaw →
          load otherTree otherEnv otherGiven true = .ok others →
          (used otherGiven otherRaw .kdir = used given raw .kdir →
            others.kdir? = settings.kdir?) ∧
          (used otherGiven otherRaw .verbose = used given raw .verbose →
            others.verbose = settings.verbose) := by
  constructor
  · intro error lenient hstored
    rw [load, hstored]
  intro raw hstored
  refine ⟨fun error => ?_, ?_, fun settings => load_strict_eq_ok hstored, ?_⟩
  · rw [load_strict_eq_error_iff hstored]
    simp only [ne_eq, problem?_kdir_eq_none_iff, problem?_verbose_eq_none_iff, not_or]
  · intro key text hget haccepted hload
    -- The text that is used is the given one.
    have hproblem : key.problem? (used given raw key) = none := by
      rw [used_of_given hget]
      exact accepted_name_iff.mp haccepted
    rcases (load_strict_eq_error_iff hstored given).mp hload with ⟨hkdir, heq⟩ | ⟨-, hverbose, heq⟩
    · cases key with
      | kdir => exact hkdir hproblem
      | verbose => cases heq
    · cases key with
      | kdir => cases heq
      | verbose => exact hverbose hproblem
  · obtain ⟨settings, hload, hselected⟩ := load_lenient hstored given
    refine ⟨settings, hload, hselected, ?_⟩
    intro otherTree otherEnv otherGiven otherRaw others hotherStored hotherLoad
    obtain ⟨others', hload', hselected'⟩ := load_lenient hotherStored otherGiven
    -- Both loadings take what the used texts mean, so equal texts give equal settings.
    obtain rfl : others' = others := Except.ok.inj (hload'.symm.trans hotherLoad)
    exact ⟨hselected'.kdir?_eq hselected, hselected'.verbose_eq hselected⟩

/-! ## Files that are not read -/

/-- Items are not taken in if one of them has a defect.  What is told is the first thing that went
    wrong, which may be something else before it. -/
private theorem exists_foldlM_take_eq_error {cause : Defect} {items : List Item}
    (h : .defect cause ∈ items) (reading : Reading) :
    ∃ first, items.foldlM Reading.take reading = .error first := by
  induction items generalizing reading with
  | nil => cases h
  | cons item items ih =>
    rw [List.foldlM_cons]
    cases htake : reading.take item with
    | error first => exact ⟨first, rfl⟩
    | ok next =>
      -- An item that is taken in has no defect, so it comes later.
      have hlater : .defect cause ∈ items := by
        rcases List.mem_cons.mp h with rfl | hlater
        · cases htake
        · exact hlater
      exact ih hlater next

/-- A line with a defect keeps the whole file from being read, wherever it stands. -/
theorem exists_ofText_eq_error {cause : Defect} {text : String} (h : .defect cause ∈ items text)
    (commonItems : List Slot) : ∃ first, Raw.ofText commonItems text = .error first := by
  obtain ⟨first, hfirst⟩ := exists_foldlM_take_eq_error h (.start commonItems)
  have hread : Reading.ofItems commonItems (items text) = .error first := hfirst
  exact ⟨first, by simp only [Raw.ofText, hread, bind, Except.bind]⟩

/-- So neither a strict nor a lenient loading succeeds, whatever is given. -/
theorem load_of_mem_items {text : String} {cause : Defect}
    (htext : storedText? tree env = .ok (some text)) (h : .defect cause ∈ items text)
    (given : Raw) (lenient : Bool) :
    ∃ first, load tree env given lenient = .error (.defect first) := by
  obtain ⟨first, hfirst⟩ := exists_ofText_eq_error h env.commonItems
  refine ⟨first, ?_⟩
  rw [load, stored, htext]
  simp only [hfirst]
  rfl

example : .defect .nullKey ∈ items "kdir=/a\n'null'=1\n" := by
  have htext : "kdir=/a\n'null'=1\n".toList =
      "kdir=/a".toList ++ '\n' :: "'null'=1".toList ++ ['\n'] := by decide
  rw [items, htext]
  exact .tail _ (.head _)

/-! ### A settings file in the root -/

/-- A relative directory and a text that is no truth value are stored; a given directory hides the
    first. -/
theorem load_by_field_rootFile :
    let tree := FileTree.empty.put ["s"] (.file "kdir=k\nverbose=maybe\n")
    let given : Raw := Table.empty.put .kdir (.ofString "/k")
    (∃ raw, stored tree rootEnvironment = .ok raw) ∧
      load tree rootEnvironment .empty false = .error (.invalid .relativeKdir) ∧
      load tree rootEnvironment given false = .error (.invalid .notBoolean) ∧
      load tree rootEnvironment given true = .ok ⟨some "/k", false⟩ := by
  intro tree given
  let raw : Raw := (Table.empty.put .kdir (.ofString "k")).put .verbose (.ofString "maybe")
  have hnode : tree.node? ["s"] = some (.file "kdir=k\nverbose=maybe\n") := rfl
  have hitems : items "kdir=k\nverbose=maybe\n" =
      [.entry (.ofString "kdir") false (.string (.ofString "k")),
        .entry (.ofString "verbose") false (.string (.ofString "maybe"))] := by
    have htext : "kdir=k\nverbose=maybe\n".toList =
        "kdir=k".toList ++ '\n' :: "verbose=maybe".toList ++ ['\n'] := by decide
    rw [items, htext]
    rfl
  have hread : Raw.ofText [] "kdir=k\nverbose=maybe\n" = .ok raw := by
    rw [Raw.ofText, hitems]
    rfl
  have hstored : stored tree rootEnvironment = .ok raw := by
    rw [stored_rootFile hnode, mapError_eq_ok_iff, hread]
  obtain ⟨hbare, -⟩ := (load_by_field tree rootEnvironment .empty).2 raw hstored
  obtain ⟨hstrict, -, -, settings, hlenient, hselected, -⟩ :=
    (load_by_field tree rootEnvironment given).2 raw hstored
  refine ⟨⟨raw, hstored⟩, ?_, ?_, ?_⟩
  · exact (hbare _).mpr (.inl ⟨by decide, rfl⟩)
  · exact (hstrict _).mpr (.inr ⟨by decide, by decide, rfl⟩)
  · -- The stored verbosity is refused, and the given directory hides the stored one.
    have hkdir : settings.kdir? = some "/k" := (hselected.kdir?_iff "/k").mpr (by decide)
    have hverbose : settings.verbose = false :=
      Bool.eq_false_iff.mpr fun h => absurd (hselected.verbose_iff.mp h) (by decide)
    rw [hlenient, ← hkdir, ← hverbose]

/-- A list whose length is no length stops even a lenient loading. -/
theorem load_of_listLength :
    let tree := FileTree.empty.put ["s"] (.file "a[]=1\n[a]\nlength=x\n")
    tree.contents rootEnvironment.workingDir "/s" = .ok "a[]=1\n[a]\nlength=x\n" ∧
      load tree rootEnvironment .empty true = .error (.defect .listLength) := by
  intro tree
  have hnode : tree.node? ["s"] = some (.file "a[]=1\n[a]\nlength=x\n") := rfl
  refine ⟨contents_rootFile hnode, ?_⟩
  rw [load, stored_rootFile hnode, ofText_listLength]
  rfl

end KconfigQuery.Settings
