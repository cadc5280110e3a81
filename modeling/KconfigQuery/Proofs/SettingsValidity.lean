import KconfigQuery.Proofs.SettingsLocation
import KconfigQuery.Proofs.SettingsRoundTrip

/-! # Settings stay valid

The texts of a record are checked when settings are loaded, and a text that is given is checked
before it is written.  What is written is not always what is read: a path can lose backslashes and
blanks, or be missing altogether.  But it never becomes a path that is not absolute, and the texts
of truth values are read as they are.  So settings that could be loaded can be loaded after any
number of changes, whichever of them were refused.

* `Valid.set`          accepted texts keep a record valid
* `Valid.readBack`     so does writing and reading
* `attempt_eq`         what one call does to valid settings
* `load_afterCalls`    what is loaded after any number of calls -/

namespace KconfigQuery.Settings

open Text (Wide)

/-! ## Valid records -/

/-- Every text of the record is accepted. -/
def Raw.Valid (raw : Raw) : Prop :=
  ∀ key : Key, key.problem? (raw.text key) = none

/-- A record is valid iff a strict check lets it pass. -/
theorem Raw.valid_iff {raw : Raw} :
    raw.Valid ↔ ∃ settings, raw.check false = .ok settings := by
  have hkdir : Key.kdir.problem? (raw.text .kdir) = none ↔
      ∃ kdir?, kdirOf (raw.text .kdir) = .ok kdir? := by
    simp only [Key.problem?]
    cases kdirOf (raw.text .kdir) <;> simp
  have hverbose : Key.verbose.problem? (raw.text .verbose) = none ↔
      ∃ verbose, verboseOf (raw.text .verbose) = .ok verbose := by
    simp only [Key.problem?]
    cases verboseOf (raw.text .verbose) <;> simp
  -- There are two settings, and the check looks at each of them.
  have hboth : raw.Valid ↔ Key.kdir.problem? (raw.text .kdir) = none ∧
      Key.verbose.problem? (raw.text .verbose) = none :=
    ⟨fun h => ⟨h .kdir, h .verbose⟩, fun h key => by cases key; exacts [h.1, h.2]⟩
  rw [hboth, hkdir, hverbose, Raw.check]
  cases kdirOf (raw.text .kdir) <;> cases verboseOf (raw.text .verbose) <;> simp [settle]

/-- A text that is accepted for the verbosity means yes iff it is `true`. -/
theorem verboseOf_eq_ok_iff {text : String} {verbose : Bool} (h : verboseOf text = .ok verbose) :
    verbose = true ↔ text = "true" := by
  unfold verboseOf at h
  split at h
  · next hempty => cases h; simp [hempty]
  · split at h
    · next htrue => cases h; simp [htrue]
    · next htrue => split at h <;> cases h; simp [htrue]

/-- What a check says about the settings. -/
private theorem Raw.of_check {raw : Raw} {settings : Settings}
    (h : raw.check false = .ok settings) :
    (∀ dir, settings.kdir? = some dir → Path.isAbsolute dir) ∧
      (settings.verbose = true ↔ raw.text .verbose = "true") := by
  constructor
  · intro dir hdir
    have hkdir := (kdir?_of_check (Raw.check_strict h) dir).mp hdir
    exact (kdirOf_eq_some_iff.mp hkdir).2.2
  · unfold Raw.check at h
    split at h
    · cases h
    · split at h
      · cases h
      · next hverbose =>
        cases h
        refine verboseOf_eq_ok_iff ?_
        -- A strict check lets no problem pass.
        cases hof : verboseOf (raw.text .verbose) with
        | ok value => rw [hof] at hverbose; exact hverbose
        | error problem => rw [hof] at hverbose; cases hverbose

private theorem problem?_empty (key : Key) : key.problem? "" = none := by
  cases key <;> rfl

/-- Accepted texts keep a record valid. -/
theorem Raw.Valid.set {raw changed : Raw} {pairs : List (String × String)} (h : raw.Valid)
    (hset : raw.set pairs = .ok changed) : changed.Valid := by
  intro key
  rw [text_of_set_eq hset]
  cases hlast : lastGiven? key pairs with
  | none => exact h key
  | some text => exact accepted_of_lastGiven? hset hlast

/-! ### Writing and reading -/

theorem isAbsolute_text {w : Wide} : Path.isAbsolute w.text ↔ w.chars.head? = some '/' := by
  simp [Path.isAbsolute, Wide.text]

/-- An accepted text that is read back is accepted again. -/
private theorem problem?_reread {key : Key} {w text : Wide} (hpaired : Json.Paired w)
    (h : key.problem? w.text = none) (hread : Field.reread w = some text) :
    key.problem? text.text = none := by
  -- The words for truth values are read as they were written; of a path the first slash is kept.
  by_cases htruth : w.text = "" ∨ w.text = "true" ∨ w.text = "false"
  · rw [Field.reread_of_truth htruth] at hread
    cases hread
    rwa [Wide.text_ofString]
  · cases key with
    | kdir =>
      have habsolute := (problem?_kdir_eq_none_iff.mp h).resolve_left fun he => htruth (.inl he)
      have hhead := Field.head?_reread hpaired (isAbsolute_text.mp habsolute) hread
      exact problem?_kdir_eq_none_iff.mpr (.inr (isAbsolute_text.mpr hhead))
    | verbose => exact absurd (problem?_verbose_eq_none_iff.mp h) htruth

/-- Writing and reading keep a record valid. -/
theorem Raw.Valid.readBack {raw : Raw} (h : raw.Valid) (hstorable : ∀ w ∈ raw.values, Storable w) :
    raw.readBack.Valid := by
  intro key
  have haccepted := h key
  rw [Raw.text] at haccepted ⊢
  rw [get?_readBack]
  cases hget : raw.get? key with
  | none => exact problem?_empty key
  | some w =>
    rw [hget] at haccepted
    rw [Option.bind_some]
    cases hread : Field.reread w with
    | none => exact problem?_empty key
    | some text =>
      exact problem?_reread (hstorable w (Table.mem_values_of_get? hget)).paired haccepted hread

/-- The text of the verbosity is read as it was written. -/
private theorem Raw.Valid.text_verbose_readBack {raw : Raw} (h : raw.Valid) :
    raw.readBack.text .verbose = raw.text .verbose := by
  have htruth := problem?_verbose_eq_none_iff.mp (h .verbose)
  rw [Raw.text] at htruth
  rw [Raw.text, Raw.text, get?_readBack]
  cases hget : raw.get? .verbose with
  | none => rfl
  | some w =>
    rw [hget] at htruth
    rw [Option.bind_some, Field.reread_of_truth htruth, Option.map_some, Wide.text_ofString]
    rfl

/-! ## Calls -/

/-- A call that gives settings. -/
structure Call where
  /-- What all lists have in common when the call is made. -/
  commonItems : List Slot
  pairs : List (String × String)

variable {tree : FileTree} {env : Environment} {path : String}

/-- What a call comes to. -/
def Call.attempt (call : Call) (env : Environment) (tree : FileTree) : FileTree.Attempt Error :=
  change tree { env with commonItems := call.commonItems } call.pairs

/-- The tree after calls, one after the other. -/
def afterCalls (env : Environment) (tree : FileTree) : List Call → FileTree
  | [] => tree
  | call :: calls => afterCalls env (call.attempt env tree).tree calls

/-- All pairs of the call are accepted. -/
def Call.Accepted (call : Call) : Prop :=
  ∀ pair ∈ call.pairs, Settings.Accepted pair.1 pair.2

instance (call : Call) : Decidable call.Accepted :=
  inferInstanceAs (Decidable (∀ pair ∈ call.pairs, Settings.Accepted pair.1 pair.2))

/-- The pairs of all calls that are accepted, in their order. -/
def acceptedPairs (calls : List Call) : List (String × String) :=
  (calls.filter fun call => call.Accepted).flatMap Call.pairs

/-- The stored settings are valid, and whether they are verbose. -/
def Reads (tree : FileTree) (env : Environment) (verbose : Prop) : Prop :=
  ∃ raw, stored tree env = .ok raw ∧ raw.Valid ∧ (raw.text .verbose = "true" ↔ verbose)

/-- A strict loading without given settings succeeds iff the file is read and its record passes the
    check. -/
theorem load_eq_ok_iff {settings : Settings} :
    load tree env .empty false = .ok settings ↔
      ∃ raw, stored tree env = .ok raw ∧ raw.check false = .ok settings := by
  have hor : ∀ raw, Raw.or .empty raw = raw := fun _ => rfl
  rw [load]
  cases hstored : stored tree env with
  | error error => simp
  | ok raw =>
    simp only [hor]
    cases hcheck : raw.check false <;> simp [Except.mapError, hcheck]

/-- Where there is no settings file, nothing is set. -/
theorem load_of_missing (h : storedText? tree env = .ok none) :
    load tree env .empty false = .ok ⟨none, false⟩ := by
  have hstored : stored tree env = .ok .empty := by
    rw [stored, h]
  exact load_eq_ok_iff.mpr ⟨.empty, hstored, rfl⟩

/-- Without a file `/s` nothing is set. -/
theorem load_of_noRootFile (hpath : env.settingsFile = .ok "/s") (h : tree.node? ["s"] = none) :
    load tree env .empty false = .ok ⟨none, false⟩ := by
  have hsteps : FileTree.steps "/s" = ["s"] := by decide
  have hsize : ¬FileTree.maxNameSize < "s".utf8ByteSize := by decide
  have hproblem : FileTree.pathProblem? "/s" = none := by decide
  -- The path starts at the root, wherever the working directory is.
  have hstart : FileTree.start env.workingDir "/s" = .at [] := if_pos (by decide)
  have hlocate : tree.locate env.workingDir .node "/s" = .ok (.vacant [] "s" false) := by
    rw [FileTree.locate, FileTree.follow, hproblem]
    simp [hstart, FileTree.WorkingDir.at, FileTree.leave, hsteps, FileTree.walk, h, hsize]
  refine load_of_missing ?_
  rw [storedText?, hpath]
  simp [FileTree.isThere, FileTree.lookUp, hlocate]

/-- Settings that were loaded are valid where they are stored. -/
private theorem reads_of_load {settings : Settings}
    (h : load tree env .empty false = .ok settings) :
    Reads tree env (settings.verbose = true) := by
  obtain ⟨raw, hstored, hcheck⟩ := load_eq_ok_iff.mp h
  exact ⟨raw, hstored, Raw.valid_iff.mpr ⟨settings, hcheck⟩, (Raw.of_check hcheck).2.symm⟩

/-- Valid settings are loaded, with an absolute path or none. -/
theorem Reads.load {verbose : Prop} (h : Reads tree env verbose) :
    ∃ settings, Settings.load tree env .empty false = .ok settings ∧
      (∀ dir, settings.kdir? = some dir → Path.isAbsolute dir) ∧
      (settings.verbose = true ↔ verbose) := by
  obtain ⟨raw, hstored, hvalid, hverbose⟩ := h
  obtain ⟨settings, hcheck⟩ := Raw.valid_iff.mp hvalid
  obtain ⟨hkdir, htext⟩ := Raw.of_check hcheck
  exact ⟨settings, load_eq_ok_iff.mpr ⟨raw, hstored, hcheck⟩, hkdir, htext.trans hverbose⟩

/-- Whether settings are verbose after pairs have been given. -/
def verboseAfter (verbose : Prop) (pairs : List (String × String)) : Prop :=
  (lastGiven? .verbose pairs).elim verbose (· = "true")

/-- Pairs that are given in two steps count one after the other. -/
private theorem verboseAfter_append (verbose : Prop) (pairs more : List (String × String)) :
    verboseAfter verbose (pairs ++ more) = verboseAfter (verboseAfter verbose pairs) more := by
  unfold verboseAfter
  rw [lastGiven?_append]
  cases lastGiven? .verbose more <;> rfl

/-- A call that is not accepted is refused and changes nothing.  One that is accepted leaves a
    settings file that can be written again and is read in one way, whatever all lists have in
    common. -/
theorem attempt_eq {verbose : Prop} (hkeeps : Keeps tree env path) (call : Call)
    (hreads : Reads tree { env with commonItems := call.commonItems } verbose) :
    (¬call.Accepted ∧ ∃ problem, call.attempt env tree = ⟨tree, some (.invalid problem)⟩) ∨
      (call.Accepted ∧ ∃ after, call.attempt env tree = ⟨after, none⟩ ∧ Keeps after env path ∧
        ∀ commonItems,
          Reads after { env with commonItems } (verboseAfter verbose call.pairs)) := by
  obtain ⟨old, hstored, hvalid, hverbose⟩ := hreads
  cases hset : old.set call.pairs with
  | error problem =>
    -- A call is refused because of one of its pairs, before anything is written.
    have hnot : ¬call.Accepted := by
      intro haccepted
      obtain ⟨changed, hchanged⟩ : ∃ changed, old.set call.pairs = .ok changed :=
        exists_set_iff.mpr haccepted
      rw [hset] at hchanged
      cases hchanged
    refine .inl ⟨hnot, problem, ?_⟩
    rw [Call.attempt, change, hstored]
    simp only [hset]
  | ok raw =>
    -- What all lists have in common has no say in where the file is.
    have hcall : Keeps tree { env with commonItems := call.commonItems } path :=
      ⟨hkeeps.named, hkeeps.written⟩
    obtain ⟨after, hstore, hkept, hthere, hcontents⟩ := hcall.store raw
    have hstorable := storable_of_set (storable_of_stored hstored) hset
    refine .inr ⟨exists_set_iff.mp ⟨raw, hset⟩, after, ?_, ⟨hkept.named, hkept.written⟩,
      fun commonItems => ?_⟩
    · rw [Call.attempt, change, hstored]
      simp only [hset, hstore]
      rfl
    · have hback := stored_of_render hkeeps.named hthere hcontents hstorable commonItems
      refine ⟨raw.readBack, hback, (hvalid.set hset).readBack hstorable, ?_⟩
      rw [(hvalid.set hset).text_verbose_readBack, text_of_set_eq hset, verboseAfter]
      cases lastGiven? .verbose call.pairs with
      | none => exact hverbose
      | some text => rfl

/-- The same for any number of calls.  Until one of them is accepted, the settings file is the one
    that was there, so it has to be readable each time. -/
private theorem reads_afterCalls {verbose : Prop} {calls : List Call} {later : List (List Slot)}
    (hkeeps : Keeps tree env path)
    (hreads : ∀ commonItems ∈ calls.map Call.commonItems ++ later,
      Reads tree { env with commonItems } verbose) :
    Keeps (afterCalls env tree calls) env path ∧
      ∀ commonItems ∈ later, Reads (afterCalls env tree calls) { env with commonItems }
        (verboseAfter verbose (acceptedPairs calls)) := by
  -- Induction on the calls; a refused call leaves the tree, and an accepted one the invariant
  -- `Reads`.
  induction calls generalizing tree verbose with
  | nil => exact ⟨hkeeps, hreads⟩
  | cons call calls ih =>
    rw [List.map_cons, List.cons_append, List.forall_mem_cons] at hreads
    rw [afterCalls, acceptedPairs]
    rcases attempt_eq hkeeps call hreads.1 with
      ⟨hnot, problem, hattempt⟩ | ⟨haccepted, after, hattempt, hkept, hafter⟩
    · rw [hattempt, List.filter_cons_of_neg (by simpa using hnot)]
      exact ih hkeeps hreads.2
    · rw [hattempt, List.filter_cons_of_pos (by simpa using haccepted), List.flatMap_cons,
        verboseAfter_append]
      exact ih hkept fun commonItems _ => hafter commonItems

/-- Settings that can be loaded can be loaded after any number of calls.  A call goes through
    exactly if all its pairs are accepted.  The kernel directory is an absolute path, if there is
    one, and whether the settings are verbose is what the last text says that an accepted call gave
    for it, or else what it was at the start. -/
theorem load_afterCalls {start : Settings} {calls : List Call} {commonItems : List Slot}
    (hkeeps : Keeps tree env path)
    (hstart : ∀ items ∈ calls.map Call.commonItems ++ [commonItems],
      load tree { env with commonItems := items } .empty false = .ok start) :
    (∀ before call after, calls = before ++ call :: after →
      ((call.attempt env (afterCalls env tree before)).stopped? = none ↔ call.Accepted)) ∧
      ∃ settings,
        load (afterCalls env tree calls) { env with commonItems } .empty false = .ok settings ∧
          (∀ dir, settings.kdir? = some dir → Path.isAbsolute dir) ∧
          (settings.verbose = true ↔
            (lastGiven? .verbose (acceptedPairs calls)).elim (start.verbose = true)
              (· = "true")) := by
  have hreads := fun items hitems => reads_of_load (hstart items hitems)
  constructor
  · rintro before call after rfl
    -- The run before a call is a run like any other, and the call comes to what its pairs say.
    have hbefore : ∀ items ∈ before.map Call.commonItems ++ [call.commonItems],
        Reads tree { env with commonItems := items } (start.verbose = true) := by
      intro items hitems
      refine hreads items (List.mem_append_left _ ?_)
      rw [List.map_append, List.map_cons, List.mem_append, List.mem_cons]
      rcases List.mem_append.mp hitems with hitems | hitems
      · exact .inl hitems
      · exact .inr (.inl (List.mem_singleton.mp hitems))
    obtain ⟨hkept, hlater⟩ := reads_afterCalls hkeeps hbefore
    rcases attempt_eq hkept call (hlater _ List.mem_cons_self) with
      ⟨hnot, problem, hattempt⟩ | ⟨haccepted, after, hattempt, -⟩
    · rw [hattempt]
      exact iff_of_false (by simp) hnot
    · rw [hattempt]
      exact iff_of_true rfl haccepted
  · exact ((reads_afterCalls hkeeps hreads).2 commonItems List.mem_cons_self).load

/-- The first call is refused because of its second pair, and of the path given by the second call
    a backslash is lost.  The settings can be loaded, and they are verbose. -/
theorem load_afterCalls_rootFile :
    ∃ settings,
      load (afterCalls rootEnvironment (FileTree.empty.put ["s"] (.file ""))
        [⟨[], [("verbose", "false"), ("kdir", "a")]⟩,
          ⟨[], [("kdir", "/a\\\\b"), ("verbose", "true")]⟩]) rootEnvironment .empty false =
        .ok settings ∧ settings.verbose = true := by
  let tree : FileTree := FileTree.empty.put ["s"] (.file "")
  let refused : Call := ⟨[], [("verbose", "false"), ("kdir", "a")]⟩
  let accepted : Call := ⟨[], [("kdir", "/a\\\\b"), ("verbose", "true")]⟩
  have hnode : tree.node? ["s"] = some (.file "") := rfl
  have hset : Raw.set .empty accepted.pairs = .ok
      ((Table.empty.put .kdir (.ofString "/a\\\\b")).put .verbose (.ofString "true")) := rfl
  have hstored : stored tree rootEnvironment = .ok .empty :=
    (change_rootFile hnode (ofText_empty []) hset).1
  have hkeeps : Keeps tree rootEnvironment "/s" :=
    ⟨by decide, tree, ["s"], makeDirectories_root tree,
      FileTree.writePlace?_eq_some_iff.mpr (.inl ⟨"", locate_rootFile hnode (by simp) .file⟩)⟩
  have hstart : ∀ items ∈ [refused, accepted].map Call.commonItems ++ [[]],
      load tree { rootEnvironment with commonItems := items } .empty false =
        .ok ⟨none, false⟩ := by
    intro items hitems
    obtain rfl : items = [] := by simpa [refused, accepted] using hitems
    exact load_eq_ok_iff.mpr ⟨.empty, hstored, rfl⟩
  obtain ⟨-, settings, hload, -, hverbose⟩ := load_afterCalls hkeeps hstart
  have hpairs : acceptedPairs [refused, accepted] = accepted.pairs := by decide
  refine ⟨settings, hload, ?_⟩
  rw [hverbose, hpairs]
  rfl

end KconfigQuery.Settings
