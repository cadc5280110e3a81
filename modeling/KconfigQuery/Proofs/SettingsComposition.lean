import KconfigQuery.Proofs.SettingsLocation
import KconfigQuery.Proofs.SettingsRoundTrip

/-! # Changes of settings one after the other

A change reads what is stored, puts the given texts in and writes everything anew.  So a second
change starts from what the first one has written, as far as that is read back.  Where it is read
back whole, nothing is lost in between, and two changes come to the same as one that is given all
pairs at once.

* `set_append`           more pairs are put in after the others
* `set_again`            what is given a second time is there already
* `store_again`          of two records written one after the other, the second one counts
* `change_append`        two changes against one -/

namespace KconfigQuery

namespace Settings

open Text (Wide)

/-! ## Giving more -/

/-- **More pairs** are put in after those that were accepted. -/
theorem set_append {raw changed : Raw} {pairs : List (String × String)}
    (h : raw.set pairs = .ok changed) (more : List (String × String)) :
    raw.set (pairs ++ more) = changed.set more := by
  -- The first pair is put into the record on both sides, and the rest is put in after it.
  induction pairs generalizing raw with
  | nil =>
    cases h
    rfl
  | cons pair pairs ih =>
    have hpair := pairProblem?_of_set_cons h
    obtain ⟨name, text⟩ := pair
    rw [List.cons_append, Raw.set]
    rw [Raw.set] at h
    unfold pairProblem? at hpair
    split at hpair
    · cases hpair
    · next key hkey =>
      simp only [hkey, hpair] at h ⊢
      exact ih h

/-- A setting that is given is in the record afterwards. -/
private theorem mem_keys_of_set {raw changed : Raw} {pairs : List (String × String)}
    (h : raw.set pairs = .ok changed) {key : Key} {text : String}
    (hmem : (key.name, text) ∈ pairs) : key ∈ changed.keys := by
  -- Some text is the last one given for it.
  have hgiven : (lastGiven? key pairs).isSome := by
    rw [lastGiven?, Option.isSome_map, Option.isSome_iff_ne_none, ne_eq,
      List.getLast?_eq_none_iff, List.filter_eq_nil_iff]
    intro hnone
    exact hnone _ hmem (by simp)
  obtain ⟨last, hlast⟩ := Option.isSome_iff_exists.mp hgiven
  have hget : changed.get? key = some (.ofString last) := by
    rw [get?_of_set_eq h, hlast]
    rfl
  by_contra hnot
  rw [Table.get?_eq_none_iff.mpr hnot] at hget
  cases hget

/-- Settings that are there already keep their places. -/
private theorem keys_of_set_of_mem {raw changed : Raw} {pairs : List (String × String)}
    (h : raw.set pairs = .ok changed)
    (hmem : ∀ (key : Key) (text : String), (key.name, text) ∈ pairs → key ∈ raw.keys) :
    changed.keys = raw.keys := by
  induction pairs generalizing raw with
  | nil =>
    cases h
    rfl
  | cons pair pairs ih =>
    obtain ⟨key, hname, -, hset⟩ := set_cons_of_accepted (pairProblem?_of_set_cons h) raw pairs
    have hkey : key ∈ raw.keys := hmem key pair.2 (hname ▸ List.mem_cons_self)
    -- The first pair replaces a text in place, so the keys stay and the others have theirs as well.
    have hkeys : (raw.put key (.ofString pair.2)).keys = raw.keys := by
      rw [Table.keys_put, if_pos hkey]
    rw [ih (hset ▸ h), hkeys]
    intro other text hother
    rw [hkeys]
    exact hmem other text (List.mem_cons_of_mem _ hother)

/-- What is given a second time is there already. -/
theorem set_again {raw changed : Raw} {pairs : List (String × String)}
    (h : raw.set pairs = .ok changed) : changed.set pairs = .ok changed := by
  obtain ⟨again, hagain⟩ : ∃ again, changed.set pairs = .ok again :=
    exists_set_iff.mpr (exists_set_iff.mp ⟨changed, h⟩)
  -- The same keys in the same places, each with the text that was given last.
  have hsame : again = changed := by
    apply Table.ext_of_get?
    · exact keys_of_set_of_mem hagain fun key text hmem => mem_keys_of_set h hmem
    · intro key
      rw [get?_of_set_eq hagain, get?_of_set_eq h]
      cases lastGiven? key pairs <;> rfl
  rw [hagain, hsame]

/-! ## Plain texts -/

/-- The text comes through a settings file as it is, for nothing in it is taken for something
    else. -/
structure Plain (text : String) : Prop where
  no_backslash : '\\' ∉ text.toList
  no_line_separator : '\u2028' ∉ text.toList
  no_paragraph_separator : '\u2029' ∉ text.toList
  not_apostrophe : text ≠ "'"

/-- The conditions of `Plain` as a conjunction, which can be decided. -/
private theorem plain_iff {text : String} :
    Plain text ↔ '\\' ∉ text.toList ∧ '\u2028' ∉ text.toList ∧ '\u2029' ∉ text.toList ∧
      text ≠ "'" :=
  ⟨fun h => ⟨h.1, h.2, h.3, h.4⟩, fun h => ⟨h.1, h.2.1, h.2.2.1, h.2.2.2⟩⟩

instance (text : String) : Decidable (Plain text) :=
  decidable_of_iff _ plain_iff.symm

/-- A plain text is read back as it is. -/
private theorem Plain.faithful {text : String} (h : Plain text) :
    Field.Faithful (.ofString text) := by
  have hchars : (Wide.ofString text).chars = text.toList := Wide.chars_ofChars _
  -- No backslash means no escape, so the text is inert.
  have hinert : Field.Inert (Wide.ofString text).chars := by
    intro c hc
    rw [hchars] at hc
    exact absurd (hc.subset List.mem_cons_self) h.no_backslash
  refine ⟨⟨?_, ?_, .inr hinert⟩, .inr ?_⟩
  · intro c hc
    rw [hchars] at hc
    rw [isSeparator, Bool.or_eq_false_iff, beq_eq_false_iff_ne, beq_eq_false_iff_ne]
    exact ⟨fun heq => h.no_line_separator (heq ▸ hc),
      fun heq => h.no_paragraph_separator (heq ▸ hc)⟩
  · exact fun heq => h.not_apostrophe (Wide.ofString_injective heq)
  · rw [Wide.string?_eq_some_iff.mpr rfl, Option.isSome_some]

/-- If all texts are plain that were there or are given, the changed record is read back. -/
private theorem readBack_of_plain {old changed : Raw} {pairs : List (String × String)}
    (hset : old.set pairs = .ok changed) (hstorable : ∀ w ∈ changed.values, Storable w)
    (hold : ∀ w ∈ old.values, ∃ text, w = .ofString text ∧ Plain text)
    (hgiven : ∀ pair ∈ pairs, Plain pair.2) : changed.readBack = changed := by
  rw [readBack_eq_self_iff hstorable]
  intro w hw
  obtain ⟨⟨key, w⟩, hentry, rfl⟩ := List.mem_map.mp hw
  have hget : changed.get? key = some w := Table.get?_eq_some_iff.mpr hentry
  rw [get?_of_set_eq hset] at hget
  -- A text of the changed record was given, or else it was there.
  cases hlast : lastGiven? key pairs with
  | some text =>
    rw [hlast] at hget
    cases hget
    exact (hgiven _ (mem_of_lastGiven? hlast)).faithful
  | none =>
    rw [hlast] at hget
    obtain ⟨text, rfl, hplain⟩ := hold w (Table.mem_values_of_get? hget)
    exact hplain.faithful

end Settings

/-! ## Writing again -/

namespace FileTree

variable {tree after : FileTree} {workingDir : WorkingDir} {path : String}

/-- What can be written goes to a place for a file, or it goes nowhere. -/
private theorem writePlace_or_sink {text : String}
    (h : tree.writeFile workingDir path text = .ok after) :
    (∃ place, tree.writePlace? workingDir path = some place) ∨
      tree.LeadsToSink workingDir path := by
  unfold writeFile at h
  split at h
  · next place old hlocate => exact .inl ⟨place, writePlace?_eq_some_iff.mpr (.inl ⟨old, hlocate⟩)⟩
  · next directory name hlocate =>
    exact .inl ⟨_, writePlace?_eq_some_iff.mpr (.inr ⟨directory, name, hlocate, rfl⟩)⟩
  · next place hlocate => exact .inr ⟨place, hlocate⟩
  · cases h
  · cases h

/-- Where a path leads to a device without contents, writing leaves the tree as it is. -/
theorem LeadsToSink.writeFile (h : tree.LeadsToSink workingDir path) (text : String) :
    tree.writeFile workingDir path text = .ok tree := by
  obtain ⟨place, hlocate⟩ := h
  rw [FileTree.writeFile, hlocate]

/-- A path that leads to such a device finds it. -/
theorem LeadsToSink.lookUp (h : tree.LeadsToSink workingDir path) :
    tree.lookUp workingDir .node path = .ok .sink := by
  obtain ⟨place, hlocate⟩ := h
  have hfound : tree.locate workingDir .node path = .ok (.found place .sink) :=
    follow_node (by simp) hlocate
  rw [FileTree.lookUp, hfound]

end FileTree

namespace Settings

variable {tree made after : FileTree} {env : Environment} {path : String}

/-- Where a record goes that can be written: to a place for a file, or nowhere. -/
theorem CanStore.cases (h : CanStore tree env) :
    ∃ path made, env.settingsFile = .ok path ∧
      tree.makeDirectories env.workingDir (Path.parent path) = ⟨made, none⟩ ∧
      ((∃ place, made.writePlace? env.workingDir path = some place) ∨
        made.LeadsToSink env.workingDir path) := by
  -- Writing fails at each other place, so what is left are the two at which it does not.
  unfold CanStore store at h
  split at h
  · next path hpath =>
    simp only [storeAt] at h
    split at h
    · next error hstopped =>
      rw [hstopped] at h
      cases h
    · next hmade =>
      refine ⟨path, _, hpath, congrArg (FileTree.Attempt.mk _) hmade, ?_⟩
      split at h
      · next after hwrite => exact FileTree.writePlace_or_sink hwrite
      · cases h
  · cases h

/-- Where nothing is kept, a record leaves no trace but the directory that was made. -/
private theorem store_of_sink (hpath : env.settingsFile = .ok path)
    (hmade : tree.makeDirectories env.workingDir (Path.parent path) = ⟨made, none⟩)
    (hsink : made.LeadsToSink env.workingDir path) (raw : Raw) :
    store tree env raw = ⟨made, none⟩ := by
  rw [store, hpath]
  simp only [storeAt, hmade, hsink.writeFile]

/-- From a device without contents nothing is read, which is a file without settings. -/
private theorem stored_of_sink (hpath : env.settingsFile = .ok path)
    (hsink : tree.LeadsToSink env.workingDir path) (commonItems : List Slot) :
    stored tree { env with commonItems } = .ok .empty := by
  have hfile : Environment.settingsFile { env with commonItems } = .ok path := hpath
  have htext : storedText? tree { env with commonItems } = .ok (some "") := by
    rw [storedText?, hfile]
    simp only [FileTree.isThere, FileTree.contents, hsink.lookUp, if_true]
    rfl
  rw [stored, htext]
  exact mapError_eq_ok_iff.mpr (ofText_empty commonItems)

/-- What all lists have in common is nothing to what is written. -/
private theorem store_commonItems (tree : FileTree) (env : Environment) (commonItems : List Slot)
    (raw : Raw) : store tree { env with commonItems } raw = store tree env raw :=
  rfl

/-- Of two records written one after the other, the second one counts. -/
theorem store_again (h : CanStore tree env) (raw other : Raw) :
    store (store tree env raw).tree env other = store tree env other := by
  obtain ⟨path, made, hpath, hmade, ⟨place, hplace⟩ | hsink⟩ := h.cases
  · -- The second record goes to the same place, for the first one changed nothing but that file.
    obtain ⟨hmadeAgain, hplaceAgain⟩ := writePlace?_of_stored hmade hplace raw.render
    rw [store_of_writePlace hpath hmade hplace, store_of_writePlace hpath hmade hplace,
      store_of_writePlace hpath hmadeAgain hplaceAgain, FileTree.put_put]
  · -- The first record left no trace but the directory, which need not be made again.
    have hsettled := FileTree.settled_of_makeDirectories hmade
    rw [store_of_sink hpath hmade hsink, store_of_sink hpath hmade hsink,
      store_of_sink hpath hsettled.makeDirectories hsink]

/-- What is stored after a record was written: the record as it is read back, or nothing where all
    records leave the same. -/
private theorem stored_store (h : CanStore tree env) {raw : Raw}
    (hstorable : ∀ w ∈ raw.values, Storable w)
    (commonItems : List Slot) :
    stored (store tree env raw).tree { env with commonItems } = .ok raw.readBack ∨
      stored (store tree env raw).tree { env with commonItems } = .ok .empty ∧
        ∀ other, store tree env other = store tree env raw := by
  obtain ⟨path, made, hpath, hmade, ⟨place, hplace⟩ | hsink⟩ := h.cases
  · rw [store_of_writePlace hpath hmade hplace]
    exact .inl (stored_of_render hpath (FileTree.isThere_of_writePlace hplace _)
      (FileTree.contents_of_writePlace hplace _) hstorable commonItems)
  · refine .inr ⟨?_, fun other => ?_⟩
    · rw [store_of_sink hpath hmade hsink]
      exact stored_of_sink hpath hsink commonItems
    · rw [store_of_sink hpath hmade hsink, store_of_sink hpath hmade hsink]

/-! ## Changing again -/

/-- A change that is accepted writes the changed record. -/
private theorem change_eq_store (h : CanStore tree env) {old changed : Raw}
    {pairs : List (String × String)} (hstored : stored tree env = .ok old)
    (hset : old.set pairs = .ok changed) :
    change tree env pairs = ⟨(store tree env changed).tree, none⟩ := by
  have hstopped := h.stopped? changed
  rw [change, hstored]
  simp only [hset, FileTree.Attempt.mapError, hstopped, Option.map_none]

/-- A change after a record was written whose texts are read back starts from this record. -/
private theorem change_store (h : CanStore tree env) {raw changed : Raw}
    {pairs : List (String × String)}
    (hstorable : ∀ w ∈ raw.values, Storable w) (hback : raw.readBack = raw)
    (hset : raw.set pairs = .ok changed) (commonItems : List Slot) :
    change (store tree env raw).tree { env with commonItems } pairs =
      ⟨(store tree env changed).tree, none⟩ := by
  have hcan : CanStore (store tree env raw).tree { env with commonItems } := by
    rw [CanStore, store_commonItems, store_again h]
    exact h
  rcases stored_store h hstorable commonItems with hkept | ⟨hempty, hall⟩
  · rw [hback] at hkept
    rw [change_eq_store hcan hkept hset, store_commonItems, store_again h]
  · -- Nothing was kept and nothing will be, whatever is given.
    obtain ⟨fresh, hfresh⟩ : ∃ fresh, Raw.set .empty pairs = .ok fresh :=
      exists_set_iff.mpr (exists_set_iff.mp ⟨changed, hset⟩)
    rw [change_eq_store hcan hempty hfresh, store_commonItems, store_again h, hall fresh,
      hall changed]

/-- Where all texts are plain that are stored or are given first, a change with some pairs and then
    one with more pairs leave the same tree, and so byte for byte the same settings file, as one
    change with all of them.  So giving the same pairs once more changes nothing, and neither does
    giving none. -/
theorem change_append {old : Raw} {pairs : List (String × String)}
    (hstored : stored tree env = .ok old) (hstore : CanStore tree env)
    (hold : ∀ w ∈ old.values, ∃ text, w = .ofString text ∧ Plain text)
    (hgiven : ∀ pair ∈ pairs, Plain pair.2)
    (haccepted : ∀ pair ∈ pairs, Accepted pair.1 pair.2) :
    ∃ after, change tree env pairs = ⟨after, none⟩ ∧
      ∀ commonItems,
        (∀ more, (∀ pair ∈ more, Accepted pair.1 pair.2) →
          ∃ final, change after { env with commonItems } more = ⟨final, none⟩ ∧
            change tree env (pairs ++ more) = ⟨final, none⟩) ∧
        change after { env with commonItems } pairs = ⟨after, none⟩ ∧
        change after { env with commonItems } [] = ⟨after, none⟩ := by
  obtain ⟨changed, hset⟩ : ∃ changed, old.set pairs = .ok changed := exists_set_iff.mpr haccepted
  have hstorable := storable_of_set (storable_of_stored hstored) hset
  have hback : changed.readBack = changed := readBack_of_plain hset hstorable hold hgiven
  refine ⟨(store tree env changed).tree, change_eq_store hstore hstored hset,
    fun commonItems => ⟨fun more hmore => ?_, ?_, ?_⟩⟩
  · -- The record after both changes is the one after all pairs at once.
    obtain ⟨final, hfinal⟩ : ∃ final, changed.set more = .ok final := exists_set_iff.mpr hmore
    have hboth : old.set (pairs ++ more) = .ok final := (set_append hset more).trans hfinal
    exact ⟨_, change_store hstore hstorable hback hfinal commonItems,
      change_eq_store hstore hstored hboth⟩
  · exact change_store hstore hstorable hback (set_again hset) commonItems
  · exact change_store hstore hstorable hback rfl commonItems

/-- A path with an equals sign goes through the file between quotes, and one with backslashes may
    come last. -/
theorem change_append_rootFile :
    let tree : FileTree := FileTree.empty.put ["s"] (.file "verbose=true\nkdir=/old;x\n")
    ∃ after final,
      change tree rootEnvironment [("kdir", "/a=b;c")] = ⟨after, none⟩ ∧
        change after rootEnvironment [("verbose", ""), ("kdir", "/b\\\\c")] = ⟨final, none⟩ ∧
        change tree rootEnvironment
          [("kdir", "/a=b;c"), ("verbose", ""), ("kdir", "/b\\\\c")] = ⟨final, none⟩ ∧
        final.node? ["s"] = some (.file "verbose=\nkdir=/b\\\\c\n") := by
  intro tree
  let old : Raw := (Table.empty.put .verbose (.ofString "true")).put .kdir (.ofString "/old")
  let last : Raw := (Table.empty.put .verbose (.ofString "")).put .kdir (.ofString "/b\\\\c")
  have hnode : tree.node? ["s"] = some (.file "verbose=true\nkdir=/old;x\n") := rfl
  have hitems : items "verbose=true\nkdir=/old;x\n" =
      [.entry (.ofString "verbose") false (.bool true),
        .entry (.ofString "kdir") false (.string (.ofString "/old"))] := by
    have htext : "verbose=true\nkdir=/old;x\n".toList =
        "verbose=true".toList ++ '\n' :: "kdir=/old;x".toList ++ ['\n'] := by decide
    rw [items, htext]
    rfl
  have hread : Raw.ofText [] "verbose=true\nkdir=/old;x\n" = .ok old := by
    rw [Raw.ofText, hitems]
    rfl
  have hset : old.set [("kdir", "/a=b;c"), ("verbose", ""), ("kdir", "/b\\\\c")] = .ok last := rfl
  obtain ⟨hstored, hchange, -⟩ := change_rootFile hnode hread hset
  have hold : ∀ w ∈ old.values, ∃ text, w = .ofString text ∧ Plain text := by
    intro w hw
    rcases List.mem_cons.mp hw with rfl | hw
    · exact ⟨"true", rfl, by decide⟩
    · obtain rfl := List.mem_singleton.mp hw
      exact ⟨"/old", rfl, by decide⟩
  have hgiven : ∀ pair ∈ [("kdir", "/a=b;c")], Plain pair.2 := by decide
  obtain ⟨after, hafter, hmore⟩ :=
    change_append hstored (canStore_of_change hchange) hold hgiven (by decide)
  obtain ⟨final, hfinal, happended⟩ :=
    (hmore []).1 [("verbose", ""), ("kdir", "/b\\\\c")] (by decide)
  -- One change with all pairs has put the last record there.
  have hlast : final = tree.put ["s"] (.file last.render) :=
    congrArg FileTree.Attempt.tree (happended.symm.trans hchange)
  have hrender : last.render = "verbose=\nkdir=/b\\\\c\n" := by decide
  refine ⟨after, final, hafter, hfinal, happended, ?_⟩
  rw [hlast, FileTree.node?_put tree (by simp), if_pos rfl, hrender]

end Settings

end KconfigQuery
