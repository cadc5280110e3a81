import KconfigQuery.Proofs.GivenPairs
import KconfigQuery.Proofs.RenderedSettings
import KconfigQuery.Proofs.WrittenFiles
import KconfigQuery.Settings.Storage

/-! # Settings that are changed and read again

A change writes all settings anew: those that were stored before in their order, with the texts that
are given put in their place or after them.  What is stored afterwards is this record again exactly
if all its texts are faithful.

* `storable_of_set`         a changed record can be written
* `stored_of_change`        what is stored after a change
* `change_then_read`        which records and which kernel directories are read as they were set -/

namespace KconfigQuery.Settings

open Text (Wide)

/-! ## Changed records -/

/-- No setting accepts the word for no value. -/
private theorem ne_null_of_accepted {key : Key} {text : String} (h : key.problem? text = none) :
    text ≠ "null" := by
  rintro rfl
  cases key <;> cases h

/-- **A changed record can be written** if the one before could: each of its texts was accepted or
    was there. -/
theorem storable_of_set {raw changed : Raw} {pairs : List (String × String)}
    (h : ∀ w ∈ raw.values, Storable w) (hset : raw.set pairs = .ok changed) :
    ∀ w ∈ changed.values, Storable w := by
  intro w hw
  obtain ⟨⟨key, w⟩, hentry, rfl⟩ := List.mem_map.mp hw
  have hget : changed.get? key = some w := Table.get?_eq_some_iff.mpr hentry
  rw [get?_of_set_eq hset] at hget
  -- A text that was put in was accepted, and all others were there before.
  cases hlast : lastGiven? key pairs with
  | some text =>
    rw [hlast] at hget
    cases hget
    exact storable_ofString (ne_null_of_accepted (accepted_of_lastGiven? hset hlast))
  | none =>
    rw [hlast] at hget
    exact h w (Table.mem_values_of_get? hget)

/-- The text given last for a setting was accepted, and it is the one in the changed record. -/
private theorem get?_of_set_last {raw changed : Raw} {before rest : List (String × String)}
    {key : Key}
    {text : String} (hrest : ∀ pair ∈ rest, pair.1 ≠ key.name)
    (hset : raw.set (before ++ (key.name, text) :: rest) = .ok changed) :
    key.problem? text = none ∧ changed.get? key = some (.ofString text) := by
  have hlast : lastGiven? key (before ++ (key.name, text) :: rest) = some text := by
    -- What comes after it is about other settings.
    have hnone : lastGiven? key rest = none := by
      simpa [lastGiven?, List.getLast?_eq_none_iff] using hrest
    rw [lastGiven?_append, lastGiven?_cons, hnone]
    simp
  refine ⟨accepted_of_lastGiven? hset hlast, ?_⟩
  rw [get?_of_set_eq hset, hlast]
  rfl

/-! ## The kernel directory -/

/-- A text means a kernel directory iff it is a path that is not empty and absolute. -/
theorem kdirOf_eq_some_iff {text dir : String} :
    kdirOf text = .ok (some dir) ↔ text = dir ∧ dir ≠ "" ∧ Path.isAbsolute dir := by
  -- The empty text means no directory, and a relative one is refused.
  unfold kdirOf
  split
  · next h =>
    refine iff_of_false (by simp) ?_
    rintro ⟨rfl, hne, -⟩
    exact hne h
  · split
    · next hne habsolute =>
      simp only [Except.ok.injEq, Option.some.injEq]
      constructor
      · rintro rfl
        exact ⟨rfl, hne, habsolute⟩
      · exact And.left
    · next habsolute =>
      refine iff_of_false (by simp) ?_
      rintro ⟨rfl, -, h⟩
      exact habsolute h

/-- A lenient reading takes the kernel directory as it is, if it means one. -/
theorem kdir?_of_check {raw : Raw} {settings : Settings} (h : raw.check true = .ok settings)
    (dir : String) :
    settings.kdir? = some dir ↔ kdirOf (raw.text .kdir) = .ok (some dir) := by
  unfold Raw.check at h
  -- A directory that is refused gives way to none, and so it is not the one that is meant.
  cases hkdir : kdirOf (raw.text .kdir) with
  | error problem =>
    rw [hkdir] at h
    simp only [settle, if_true] at h
    split at h
    · cases h
    · cases h
      simp
  | ok kdir? =>
    rw [hkdir] at h
    simp only [settle] at h
    split at h
    · cases h
    · cases h
      simp

/-- A kernel directory that was written is what is read exactly if its path is faithful. -/
private theorem text_kdir_readBack_iff {raw : Raw} {dir : String}
    (h : raw.get? .kdir = some (.ofString dir)) (hs : Storable (.ofString dir)) (hne : dir ≠ "") :
    raw.readBack.text .kdir = dir ↔ Field.Faithful (.ofString dir) := by
  have hget : raw.readBack.get? .kdir = Field.reread (.ofString dir) := by
    rw [get?_readBack, h, Option.bind_some]
  rw [← Field.reread_eq_some_iff hs.paired hs.ne_null, Raw.text, hget]
  cases hread : Field.reread (.ofString dir) with
  | none =>
    refine iff_of_false ?_ (by simp)
    exact fun heq => hne heq.symm
  | some w =>
    -- What is read of a text is a text, so it is told apart by its characters.
    have hwhole : w.string?.isSome := by
      refine Field.string?_isSome_of_reread hs.paired ?_ hread
      rw [Wide.string?_eq_some_iff.mpr rfl, Option.isSome_some]
    have hw : w = .ofString w.text := (Wide.isSome_string?_iff.mp hwhole).symm
    simp only [Option.map_some, Option.getD_some, Option.some.injEq]
    constructor
    · rintro rfl
      exact hw
    · intro heq
      rw [heq, Wide.text_ofString]

/-! ## The settings file -/

variable {tree after : FileTree} {env : Environment} {path : String}

/-- What is stored can be written again. -/
theorem storable_of_stored {raw : Raw} (h : stored tree env = .ok raw) :
    ∀ w ∈ raw.values, Storable w := by
  unfold stored at h
  split at h
  · exact storable_of_ofText (mapError_eq_ok_iff.mp h)
  · cases h
    intro w hw
    cases hw
  · cases h

/-- A change that goes through has written the changed record, if it was kept. -/
theorem contents_of_change {pairs : List (String × String)} (hpath : env.settingsFile = .ok path)
    (hchange : change tree env pairs = ⟨after, none⟩)
    (hsink : ¬after.LeadsToSink env.workingDir path) :
    ∃ old raw, stored tree env = .ok old ∧ old.set pairs = .ok raw ∧
      after.isThere env.workingDir path ∧ after.contents env.workingDir path = .ok raw.render := by
  unfold change at hchange
  split at hchange
  · cases hchange
  · next old hold =>
    split at hchange
    · cases hchange
    · next raw hset =>
      refine ⟨old, raw, hold, hset, ?_⟩
      rw [store, hpath] at hchange
      simp only [storeAt] at hchange
      -- The directory is there now, so the file was written or went nowhere.
      split at hchange
      · next error hstopped =>
        simp [FileTree.Attempt.mapError, hstopped] at hchange
      · split at hchange
        · next written hwrite =>
          cases hchange
          obtain ⟨place, hplace, rfl⟩ := FileTree.exists_writePlace hwrite hsink
          exact ⟨FileTree.isThere_of_writePlace hplace _, FileTree.contents_of_writePlace hplace _⟩
        · simp [FileTree.Attempt.mapError] at hchange

/-- A file with the text of a record stores the record as it is read back, whatever all lists have
    in common. -/
theorem stored_of_render {raw : Raw} (hpath : env.settingsFile = .ok path)
    (hthere : tree.isThere env.workingDir path)
    (hcontents : tree.contents env.workingDir path = .ok raw.render)
    (hstorable : ∀ w ∈ raw.values, Storable w) (commonItems : List Slot) :
    stored tree { env with commonItems } = .ok raw.readBack := by
  have hfile : Environment.settingsFile { env with commonItems } = .ok path := hpath
  have htext : storedText? tree { env with commonItems } = .ok (some raw.render) := by
    rw [storedText?, hfile]
    simp only [hthere, if_true, hcontents]
    rfl
  rw [stored, htext]
  exact mapError_eq_ok_iff.mpr (ofText_render commonItems hstorable)

/-- What is stored after a change is the changed record, with every text as it is read back. -/
theorem stored_of_change {pairs : List (String × String)} (hpath : env.settingsFile = .ok path)
    (hchange : change tree env pairs = ⟨after, none⟩)
    (hsink : ¬after.LeadsToSink env.workingDir path) :
    ∃ old raw, stored tree env = .ok old ∧ old.set pairs = .ok raw ∧
      (∀ w ∈ raw.values, Storable w) ∧ after.contents env.workingDir path = .ok raw.render ∧
      ∀ commonItems, stored after { env with commonItems } = .ok raw.readBack := by
  obtain ⟨old, raw, hold, hset, hthere, hcontents⟩ := contents_of_change hpath hchange hsink
  have hstorable := storable_of_set (storable_of_stored hold) hset
  exact ⟨old, raw, hold, hset, hstorable, hcontents,
    stored_of_render hpath hthere hcontents hstorable⟩

/-- Settings are changed and read again, by the same run or by a later one.  What is written is the
    stored record with the given texts put in, and what is read is that record again exactly if all
    its texts are faithful.  A kernel directory that was given is what is read exactly if its path
    is faithful.  A settings file that keeps nothing of what is written to it is left out. -/
theorem change_then_read {pairs : List (String × String)} (hpath : env.settingsFile = .ok path)
    (hchange : change tree env pairs = ⟨after, none⟩)
    (hsink : ¬after.LeadsToSink env.workingDir path) :
    ∃ old raw, stored tree env = .ok old ∧ old.set pairs = .ok raw ∧
      after.contents env.workingDir path = .ok raw.render ∧
      ∀ commonItems,
        (stored after { env with commonItems } = .ok raw ↔
          ∀ w ∈ raw.values, Field.Faithful w) ∧
        ∀ before dir rest, pairs = before ++ ("kdir", dir) :: rest →
          (∀ pair ∈ rest, pair.1 ≠ "kdir") → dir ≠ "" →
          ∃ settings, load after { env with commonItems } .empty true = .ok settings ∧
            (settings.kdir? = some dir ↔ Field.Faithful (.ofString dir)) := by
  obtain ⟨old, raw, hold, hset, hstorable, hcontents, hback⟩ :=
    stored_of_change hpath hchange hsink
  refine ⟨old, raw, hold, hset, hcontents, fun commonItems => ?_⟩
  have hstored := hback commonItems
  constructor
  · rw [hstored, Except.ok.injEq]
    exact readBack_eq_self_iff hstorable
  · rintro before dir rest rfl hrest hne
    have hlast : Key.kdir.problem? dir = none ∧ raw.get? .kdir = some (.ofString dir) :=
      get?_of_set_last hrest hset
    obtain ⟨haccepted, hget⟩ := hlast
    obtain ⟨settings, hcheck⟩ := Raw.check_lenient raw.readBack
    have hload : load after { env with commonItems } .empty true = .ok settings := by
      have hor : Raw.or .empty raw.readBack = raw.readBack := rfl
      rw [load, hstored]
      simp only [hor, hcheck]
      rfl
    refine ⟨settings, hload, ?_⟩
    -- The path was accepted, so what is read is used exactly if it is the path again.
    have habsolute := (problem?_kdir_eq_none_iff.mp haccepted).resolve_left hne
    rw [kdir?_of_check hcheck, kdirOf_eq_some_iff,
      ← text_kdir_readBack_iff hget (storable_ofString (ne_null_of_accepted haccepted)) hne]
    simp [hne, habsolute]

/-! ### A settings file in the root -/

/-- An environment with the settings file `/s`. -/
def rootEnvironment : Environment where
  settingsFile? := some "/s"
  configHome? := none
  home := "/"
  kernelDir? := none
  workingDir := .at []
  workingPath? := some "/"

/-- A name in the root is found at its place. -/
theorem locate_inRoot {name path : String} {node : Node} (h : tree.node? [name] = some node)
    (hlink : ∀ target, node ≠ .link target) (hproblem : FileTree.pathProblem? path = none)
    (habsolute : path.toList.head? = some '/') (hsteps : FileTree.steps path = [name])
    (hname : name ≠ "" ∧ name ≠ "." ∧ name ≠ "..")
    (hsize : name.utf8ByteSize ≤ FileTree.maxNameSize) (aim : FileTree.Aim) :
    tree.locate rootEnvironment.workingDir aim path = .ok (.found [name] node) := by
  have hshort : ¬FileTree.maxNameSize < name.utf8ByteSize := Nat.not_lt.mpr hsize
  -- The walk has one step, from the root to the name.
  rw [FileTree.locate, rootEnvironment, FileTree.follow_of_present hproblem, hsteps,
    FileTree.origin, if_pos habsolute, FileTree.walk]
  cases node with
  | link target => exact absurd rfl (hlink target)
  | _ => simp [h, hname, hshort, FileTree.walk]

/-- What is named `s` in the root is found at `/s`. -/
theorem locate_rootFile {node : Node} (h : tree.node? ["s"] = some node)
    (hlink : ∀ target, node ≠ .link target) (aim : FileTree.Aim) :
    tree.locate rootEnvironment.workingDir aim "/s" = .ok (.found ["s"] node) :=
  locate_inRoot h hlink (by decide) (by decide) (by decide) (by decide) (by decide) aim

/-- The directory of `/s` is the root, which need not be made. -/
theorem makeDirectories_root (tree : FileTree) :
    tree.makeDirectories rootEnvironment.workingDir (Path.parent "/s") = ⟨tree, none⟩ := by
  have hparent : Path.parent "/s" = "/" := by decide
  have hsteps : FileTree.steps "/" = [] := by decide
  have hproblem : FileTree.pathProblem? "/" = none := by decide
  rw [hparent]
  refine FileTree.makeDirectories_of_isDirectory ?_ ?_
  · rw [FileTree.makeDirectory, rootEnvironment, FileTree.follow_of_present hproblem, hsteps,
      FileTree.origin, if_pos (by decide)]
    simp [FileTree.walk]
  · rw [FileTree.lookUp, FileTree.locate, rootEnvironment, FileTree.follow_of_present hproblem,
      hsteps, FileTree.origin, if_pos (by decide)]
    simp [FileTree.walk]

theorem contents_rootFile {text : String} (h : tree.node? ["s"] = some (.file text)) :
    tree.contents rootEnvironment.workingDir "/s" = .ok text := by
  rw [FileTree.contents, FileTree.lookUp, locate_rootFile h (by simp)]

/-- What is stored at `/s`, whatever kind of node has the text. -/
private theorem stored_root {text : String} {node : Node} (hnode : tree.node? ["s"] = some node)
    (hlink : ∀ target, node ≠ .link target)
    (hcontents : tree.contents rootEnvironment.workingDir "/s" = .ok text) :
    stored tree rootEnvironment = (Raw.ofText [] text).mapError .defect := by
  have hpath : rootEnvironment.settingsFile = .ok "/s" := by decide
  have hthere : tree.isThere rootEnvironment.workingDir "/s" = true := by
    rw [FileTree.isThere, FileTree.lookUp, locate_rootFile hnode hlink]
  have htext : storedText? tree rootEnvironment = .ok (some text) := by
    rw [storedText?, hpath]
    simp only [hthere, if_true, hcontents]
    rfl
  rw [stored, htext]
  rfl

theorem stored_rootFile {text : String} (h : tree.node? ["s"] = some (.file text)) :
    stored tree rootEnvironment = (Raw.ofText [] text).mapError .defect :=
  stored_root h (by simp) (contents_rootFile h)

/-- What can be written to `/s` is stored there, for the root is there already. -/
theorem store_root {raw : Raw}
    (hwrite : tree.writeFile rootEnvironment.workingDir "/s" raw.render = .ok after) :
    store tree rootEnvironment raw = ⟨after, none⟩ := by
  have hpath : rootEnvironment.settingsFile = .ok "/s" := by decide
  rw [store, hpath]
  simp only [storeAt, makeDirectories_root, hwrite]

/-- A file `/s` is written over. -/
theorem writeFile_rootFile {text : String} (h : tree.node? ["s"] = some (.file text))
    (written : String) :
    tree.writeFile rootEnvironment.workingDir "/s" written =
      .ok (tree.put ["s"] (.file written)) := by
  rw [FileTree.writeFile, locate_rootFile h (by simp)]

/-- A change of accepted texts at `/s`, whatever kind of node takes the record. -/
private theorem change_root {text : String} {old raw : Raw} {pairs : List (String × String)}
    {node : Node} (hnode : tree.node? ["s"] = some node) (hlink : ∀ target, node ≠ .link target)
    (hcontents : tree.contents rootEnvironment.workingDir "/s" = .ok text)
    (hread : Raw.ofText [] text = .ok old) (hset : old.set pairs = .ok raw)
    (hwrite : tree.writeFile rootEnvironment.workingDir "/s" raw.render = .ok after) :
    stored tree rootEnvironment = .ok old ∧
      change tree rootEnvironment pairs = ⟨after, none⟩ := by
  have hstored : stored tree rootEnvironment = .ok old := by
    rw [stored_root hnode hlink hcontents, mapError_eq_ok_iff, hread]
  refine ⟨hstored, ?_⟩
  rw [change, hstored]
  simp only [hset, store_root hwrite]
  rfl

/-- A change of accepted texts in a file `/s` writes the record there, where it is kept. -/
theorem change_rootFile {text : String} {old raw : Raw} {pairs : List (String × String)}
    (hnode : tree.node? ["s"] = some (.file text)) (hread : Raw.ofText [] text = .ok old)
    (hset : old.set pairs = .ok raw) :
    stored tree rootEnvironment = .ok old ∧
      change tree rootEnvironment pairs = ⟨tree.put ["s"] (.file raw.render), none⟩ ∧
      ¬(tree.put ["s"] (.file raw.render)).LeadsToSink rootEnvironment.workingDir "/s" := by
  obtain ⟨hstored, hchange⟩ := change_root hnode (by simp) (contents_rootFile hnode) hread hset
    (writeFile_rootFile hnode raw.render)
  refine ⟨hstored, hchange, ?_⟩
  rintro ⟨place, hlocate⟩
  have hput : (tree.put ["s"] (.file raw.render)).node? ["s"] = some (.file raw.render) := by
    rw [FileTree.node?_put tree (by simp), if_pos rfl]
  rw [locate_rootFile hput (by simp)] at hlocate
  cases hlocate

/-- A text that is no length stops the reading of the file that gives it to a list as its length. -/
theorem ofText_listLength : Raw.ofText [] "a[]=1\n[a]\nlength=x\n" = .error .listLength := by
  have hitems : items "a[]=1\n[a]\nlength=x\n" =
      [.entry (.ofString "a") true (.string (.ofString "1")), .header (.ofString "a"),
        .entry (.ofString "length") false (.string (.ofString "x"))] := by
    have htext : "a[]=1\n[a]\nlength=x\n".toList =
        "a[]=1".toList ++ '\n' :: "[a]".toList ++ '\n' :: "length=x".toList ++ ['\n'] := by decide
    rw [items, htext]
    rfl
  rw [Raw.ofText, hitems]
  rfl

/-- A semicolon in the path of a kernel directory is written with a backslash and read back. -/
theorem change_then_read_semicolon :
    ∃ after settings,
      change (FileTree.empty.put ["s"] (.file "")) rootEnvironment [("kdir", "/a;b")] =
        ⟨after, none⟩ ∧
      after.contents rootEnvironment.workingDir "/s" = .ok "kdir=/a\\;b\n" ∧
      load after rootEnvironment .empty true = .ok settings ∧ settings.kdir? = some "/a;b" := by
  have hnode : (FileTree.empty.put ["s"] (.file "")).node? ["s"] = some (.file "") := rfl
  have hset : Raw.set .empty [("kdir", "/a;b")] =
      .ok (Table.empty.put .kdir (.ofString "/a;b")) := rfl
  obtain ⟨hstored, hchange, hsink⟩ := change_rootFile hnode (ofText_empty []) hset
  obtain ⟨old, raw, hold, hraw, hcontents, hread⟩ :=
    change_then_read (by decide : rootEnvironment.settingsFile = .ok "/s") hchange hsink
  rw [hstored, Except.ok.injEq] at hold
  rw [← hold, hset, Except.ok.injEq] at hraw
  rw [← hraw] at hcontents
  obtain ⟨settings, hload, hkdir⟩ := (hread []).2 [] "/a;b" [] rfl (by simp) (by decide)
  exact ⟨_, settings, hchange, hcontents, hload, hkdir.mpr (by decide)⟩

/-- All texts of the changed record are legible, and yet the record is not what is read. -/
def Loses (tree : FileTree) (pairs : List (String × String)) : Prop :=
  ∃ old raw after, stored tree rootEnvironment = .ok old ∧ old.set pairs = .ok raw ∧
    change tree rootEnvironment pairs = ⟨after, none⟩ ∧
    (∀ w ∈ raw.values, Field.Legible w) ∧ stored after rootEnvironment ≠ .ok raw

/-- A settings file that keeps nothing loses what is written to it, and half a surrogate pair that
    was read from between quotes is lost when it is written without them. -/
theorem change_loses :
    Loses (FileTree.empty.put ["s"] .sink) [("kdir", "/a")] ∧
      Loses (FileTree.empty.put ["s"] (.file "kdir=\"/\\ud800\"\n")) [("verbose", "true")] := by
  constructor
  · have hnode : (FileTree.empty.put ["s"] .sink).node? ["s"] = some .sink := rfl
    have hset : Raw.set .empty [("kdir", "/a")] =
        .ok (Table.empty.put .kdir (.ofString "/a")) := rfl
    have hcontents : (FileTree.empty.put ["s"] .sink).contents rootEnvironment.workingDir "/s" =
        .ok "" := by
      rw [FileTree.contents, FileTree.lookUp, locate_rootFile hnode (by simp)]
    have hwrite : ∀ text, (FileTree.empty.put ["s"] .sink).writeFile rootEnvironment.workingDir
        "/s" text = .ok (FileTree.empty.put ["s"] .sink) := by
      intro text
      rw [FileTree.writeFile, locate_rootFile hnode (by simp)]
    obtain ⟨hstored, hchange⟩ :=
      change_root hnode (by simp) hcontents (ofText_empty []) hset (hwrite _)
    refine ⟨_, _, _, hstored, hset, hchange, by decide, ?_⟩
    -- Nothing was stored before, and nothing is stored now.
    rw [hstored]
    intro heq
    have hsize := congrArg Table.size (Except.ok.inj heq)
    exact absurd hsize (by decide)
  · have hnode : (FileTree.empty.put ["s"] (.file "kdir=\"/\\ud800\"\n")).node? ["s"] =
        some (.file "kdir=\"/\\ud800\"\n") := rfl
    let half : Wide := [.char '/', .surrogate 0xD800]
    have hitems : items "kdir=\"/\\ud800\"\n" =
        [.entry (.ofString "kdir") false (.string half)] := by
      have htext : "kdir=\"/\\ud800\"\n".toList =
          "kdir=".toList ++ Json.quote half ++ ['\n'] := by decide
      rw [items, htext]
      rfl
    have hread : Raw.ofText [] "kdir=\"/\\ud800\"\n" = .ok (Table.empty.put .kdir half) := by
      rw [Raw.ofText, hitems]
      rfl
    have hset : Raw.set (Table.empty.put .kdir half) [("verbose", "true")] =
        .ok ((Table.empty.put .kdir half).put .verbose (.ofString "true")) := rfl
    obtain ⟨hstored, hchange, hsink⟩ := change_rootFile hnode hread hset
    refine ⟨_, _, _, hstored, hset, hchange, by decide, ?_⟩
    obtain ⟨old, raw, hold, hraw, hstorable, -, hback⟩ :=
      stored_of_change (by decide : rootEnvironment.settingsFile = .ok "/s") hchange hsink
    rw [hstored, Except.ok.injEq] at hold
    rw [← hold, hset, Except.ok.injEq] at hraw
    rw [← hraw] at hstorable hback
    -- The changed record holds the half pair, and no quotes are put around it.
    have hlost := (readBack_eq_self_iff hstorable).not.mpr (by decide)
    intro heq
    exact hlost (Except.ok.inj ((hback []).symm.trans heq))

end KconfigQuery.Settings
