import KconfigQuery.Proofs.WrittenFiles
import KconfigQuery.Settings.Storage

/-! # Where the settings file is written again and again

Writing the settings file first makes its directory and then puts the file there.  After that the
directory is there and the path leads to the file, so nothing has to be made the next time and the
file goes to the same place.

* `settled_of_makeDirectories`   directories that were made are there
* `Settled.put`                  a file that is written takes no directory away
* `Keeps.store`                  where a settings file was kept, the next one will be -/

namespace KconfigQuery.FileTree

variable {tree made : FileTree} {target : Place} {workingDir : WorkingDir} {path : String}

/-! ## Paths with a slash at the end -/

/-- A slash after what leads to a directory changes nothing. -/
private theorem walk_slash {links : Nat} {place found : Place} {names : List String}
    (h : walk tree .node links place names = .ok (.found found .directory)) :
    walk tree .node links place (names ++ [""]) = .ok (.found found .directory) := by
  -- Along the walk; only at its end does the empty name count, and there it stays.
  fun_induction walk tree .node links place names with
  | case1 links place node hnode =>
    cases h
    rw [List.nil_append, walk, if_neg (by simp [hnode]), if_pos (.inl rfl), walk, hnode]
  | case4 links place name rest hdir hname ih =>
    rw [List.cons_append, walk, if_neg hdir, if_pos hname, ih h]
  | case5 links place rest hdir hname ih =>
    rw [List.cons_append, walk, if_neg hdir, if_neg hname, if_pos rfl, ih h]
  | case8 => cases h
  | case9 => cases h
  | case11 => cases h
  | case13 place name rest hdir hname hup hslash hsize next hlink hlast links ih =>
    rw [List.cons_append, walk_of_link (Decidable.not_not.mp hdir) hname hup (by simp) hsize hlink
      (by simp), ← List.append_assoc, ih h]
  | case14 links place name rest hdir hname hup hslash hsize node hnode hsome ih =>
    rw [List.cons_append, walk_of_node (Decidable.not_not.mp hdir) hname hup (by simp) hsize hsome
      hnode, ih h]
  | _ => cases h

/-- Leaving a directory that was removed does not depend on a slash at the end. -/
private theorem leave_slash {lost : Nat} {names : List String} {rest? : Option (List String)}
    (h : leave lost names = .ok rest?) :
    leave lost (names ++ [""]) = .ok (rest?.map (· ++ [""])) := by
  -- As the names lead out of the removed directory, one level for each `..`.
  fun_induction leave lost names with
  | case1 names =>
    cases h
    rw [leave]
    rfl
  | case2 lost =>
    cases h
    rw [List.nil_append, leave, if_pos (.inl rfl), leave]
    rfl
  | case3 lost name rest hname ih => rw [List.cons_append, leave, if_pos hname, ih h]
  | case4 lost rest hname ih =>
    rw [List.cons_append, leave, if_neg hname, if_pos rfl, ih h]
  | case5 => cases h

/-- What leads to a directory leads there with a slash at the end as well. -/
private theorem follow_slash {names : List String} {found : Place}
    (h : follow tree workingDir .node path names = .ok (.found found .directory)) :
    follow tree workingDir .node path (names ++ [""]) = .ok (.found found .directory) := by
  rw [follow_eq_ok_iff] at h ⊢
  obtain ⟨hproblem, ⟨hleave, heq⟩ | ⟨rest, hleave, hwalk⟩⟩ := h
  · cases heq
  · exact ⟨hproblem, .inr ⟨rest ++ [""], leave_slash hleave, walk_slash hwalk⟩⟩

/-- The names that lead to a directory, without the slash at the end. -/
def directorySteps (path : String) : List String :=
  (steps path).filter (· ≠ "")

/-- The steps of a path are the names, with an empty one more if there is a slash at its end. -/
private theorem steps_eq (path : String) :
    steps path = directorySteps path ∨ steps path = directorySteps path ++ [""] := by
  unfold directorySteps steps
  by_cases h : (((Text.pieces '/' path.toList).map String.ofList).filter (· ≠ "")) ≠ [] ∧
      ((Text.pieces '/' path.toList).map String.ofList).getLast? = some ""
  · simp only [if_pos h]
    right
    simp
  · simp only [if_neg h]
    left
    simp

/-! ## Directories that are there -/

/-- At the path is a directory, or something that leads to one. -/
structure Settled (tree : FileTree) (workingDir : WorkingDir) (path : String) : Prop where
  taken : tree.makeDirectory workingDir path = .error .alreadyExists
  leads : tree.lookUp workingDir .node path = .ok .directory

/-- A directory that is there need not be made. -/
theorem Settled.makeDirectories (h : tree.Settled workingDir path) :
    tree.makeDirectories workingDir path = ⟨tree, none⟩ :=
  makeDirectories_of_isDirectory h.taken h.leads

/-- No walk fails because something is there. -/
private theorem walk_ne_alreadyExists {aim : Aim} {links : Nat} {place : Place}
    {names : List String} :
    walk tree aim links place names ≠ .error .alreadyExists := by
  fun_induction walk tree aim links place names <;> simp_all

/-- No path fails because something is there. -/
private theorem follow_ne_alreadyExists {aim : Aim} {names : List String} :
    follow tree workingDir aim path names ≠ .error .alreadyExists := by
  -- None of the three stages has this failure: leaving, the path itself, or the walk.
  have hleave : ∀ lost names, leave lost names ≠ .error .alreadyExists := by
    intro lost names
    fun_induction leave lost names <;> simp_all
  have hproblem : pathProblem? path ≠ some .alreadyExists := by
    unfold pathProblem?
    split <;> simp
    split <;> simp
  unfold follow
  split
  · next cause hcause =>
    intro heq
    exact hproblem (hcause.trans (congrArg some (Except.error.inj heq)))
  · split
    · exact walk_ne_alreadyExists
    · simp
    · next cause hcause =>
      intro heq
      cases heq
      exact hleave _ _ hcause

/-- A directory cannot be made where there is something, or in a directory that was removed. -/
private theorem makeDirectory_eq_alreadyExists_iff :
    tree.makeDirectory workingDir path = .error .alreadyExists ↔
      (∃ found node, follow tree workingDir .entry path (directorySteps path) =
        .ok (.found found node)) ∨
      follow tree workingDir .entry path (directorySteps path) = .ok .removed := by
  unfold makeDirectory directorySteps
  cases hfollow : follow tree workingDir .entry path ((steps path).filter (· ≠ "")) with
  | error cause =>
    have hcause : cause ≠ .alreadyExists := by
      rintro rfl
      exact follow_ne_alreadyExists hfollow
    simpa using hcause
  | ok destination => cases destination <;> simp

/-- A path whose names lead to a directory leads there. -/
private theorem locate_of_directorySteps {found : Place}
    (h : follow tree workingDir .node path (directorySteps path) = .ok (.found found .directory)) :
    tree.locate workingDir .node path = .ok (.found found .directory) := by
  rcases steps_eq path with heq | heq
  · rw [locate, heq, h]
  · rw [locate, heq, follow_slash h]

/-- A directory that was made is there. -/
private theorem settled_of_makeDirectory (h : tree.makeDirectory workingDir path = .ok made) :
    made.Settled workingDir path := by
  unfold makeDirectory at h
  split at h
  · next directory name slashed hfollow =>
    cases h
    -- The name was free, so the new directory is where the path leads now.
    have hfree : tree.node? (directory ++ [name]) = none := agrees_of_follow hfollow
    have hwritable : tree.Writable (directory ++ [name]) :=
      ⟨by simp, by simp [hfree], by simp [hfree]⟩
    have hput := follow_put hwritable .directory (by simp) (fun _ _ _ => rfl) hfollow
    rw [Destination.after, if_pos rfl] at hput
    constructor
    · exact makeDirectory_eq_alreadyExists_iff.mpr (.inl ⟨_, _, hput⟩)
    · rw [lookUp, locate_of_directorySteps (follow_node (by simp) hput)]
  · cases h
  · cases h
  · cases h

/-- A directory that was ensured is there, whether it had to be made or not. -/
private theorem settled_of_ensureDirectory {forAnother : Bool}
    (h : tree.ensureDirectory workingDir forAnother path = ⟨made, none⟩) :
    made.Settled workingDir path := by
  unfold ensureDirectory at h
  split at h
  · next after hmake =>
    cases h
    exact settled_of_makeDirectory hmake
  · next htaken =>
    -- What is there raises no objection, so it leads to a directory.
    obtain rfl : tree = made := congrArg Attempt.tree h
    have hnone : tree.objection? workingDir forAnother path = none :=
      Option.map_eq_none_iff.mp (congrArg Attempt.stopped? h)
    rw [objection?] at hnone
    refine ⟨htaken, ?_⟩
    split at hnone
    · assumption
    · cases hnone
    · cases hnone
  · cases h

/-- Directories that were made are there. -/
theorem settled_of_makeDirectories
    (h : tree.makeDirectories workingDir path = ⟨made, none⟩) : made.Settled workingDir path := by
  unfold makeDirectories at h
  cases henclosing : enclosing path with
  | nil =>
    rw [henclosing, ensureChain] at h
    exact settled_of_ensureDirectory h
  | cons parent outer =>
    -- Whatever is made around it, the directory itself comes last.
    rw [henclosing, ensureChain] at h
    split at h
    · dsimp only at h
      split at h
      · exact settled_of_ensureDirectory h
      · next hstopped =>
        rw [h] at hstopped
        cases hstopped
    · exact settled_of_ensureDirectory h

/-- A file that is written takes no directory away. -/
theorem Settled.put (h : tree.Settled workingDir path) (hwritable : tree.Writable target)
    (text : String) : (tree.put target (.file text)).Settled workingDir path := by
  have hput : ∀ {aim names found node},
      follow tree workingDir aim path names = .ok (.found found node) →
        follow (tree.put target (.file text)) workingDir aim path names =
          .ok (.found found (if found = target then .file text else node)) :=
    fun hfollow => follow_put hwritable (.file text) (by simp) (by simp) hfollow
  have hremoved : ∀ {aim names}, follow tree workingDir aim path names = .ok .removed →
      follow (tree.put target (.file text)) workingDir aim path names = .ok .removed :=
    fun hfollow => follow_put hwritable (.file text) (by simp) (by simp) hfollow
  constructor
  · rw [makeDirectory_eq_alreadyExists_iff]
    rcases makeDirectory_eq_alreadyExists_iff.mp h.taken with ⟨found, node, hfollow⟩ | hfollow
    · exact .inl ⟨_, _, hput hfollow⟩
    · exact .inr (hremoved hfollow)
  · have hleads := h.leads
    unfold lookUp at hleads ⊢
    split at hleads
    · next found node hlocate =>
      cases hleads
      have hdirectory : tree.node? found = some .directory := agrees_of_follow hlocate
      -- A file is not put where a directory is.
      have hne : found ≠ target := by
        rintro rfl
        exact hwritable.not_directory hdirectory
      have hkept := hput hlocate
      rw [if_neg hne] at hkept
      rw [locate, hkept]
    · next hlocate => rw [locate, hremoved hlocate]
    · cases hleads
    · cases hleads

end KconfigQuery.FileTree

namespace KconfigQuery.Settings

variable {tree after : FileTree} {env : Environment} {path : String}

/-! ## The settings file -/

/-- The settings file is at the path, it can be written there, and it keeps what is written. -/
structure Keeps (tree : FileTree) (env : Environment) (path : String) : Prop where
  named : env.settingsFile = .ok path
  written : ∃ made place,
    tree.makeDirectories env.workingDir (Path.parent path) = ⟨made, none⟩ ∧
      made.writePlace? env.workingDir path = some place

/-- Where the directory can be made and a file can be put in it, a record is put there. -/
theorem store_of_writePlace {made : FileTree} {place : Place} (hpath : env.settingsFile = .ok path)
    (hmade : tree.makeDirectories env.workingDir (Path.parent path) = ⟨made, none⟩)
    (hplace : made.writePlace? env.workingDir path = some place) (raw : Raw) :
    store tree env raw = ⟨made.put place (.file raw.render), none⟩ := by
  rw [store, hpath]
  simp only [storeAt, hmade, FileTree.writeFile_of_writePlace hplace]

/-- After that, the directory is there and the path leads to the file, so that the next record is
    put at the same place. -/
theorem writePlace?_of_stored {made : FileTree} {place : Place}
    (hmade : tree.makeDirectories env.workingDir (Path.parent path) = ⟨made, none⟩)
    (hplace : made.writePlace? env.workingDir path = some place) (text : String) :
    (made.put place (.file text)).makeDirectories env.workingDir (Path.parent path) =
        ⟨made.put place (.file text), none⟩ ∧
      (made.put place (.file text)).writePlace? env.workingDir path = some place := by
  have hsettled : (made.put place (.file text)).Settled env.workingDir (Path.parent path) :=
    (FileTree.settled_of_makeDirectories hmade).put (FileTree.writable_of_writePlace hplace) _
  exact ⟨hsettled.makeDirectories, FileTree.writePlace?_eq_some_iff.mpr
    (.inl ⟨text, FileTree.locate_of_writePlace hplace text⟩)⟩

/-- Where a settings file is kept, a record is written and found, and the next one will be kept. -/
theorem Keeps.store (h : Keeps tree env path) (raw : Raw) :
    ∃ after, store tree env raw = ⟨after, none⟩ ∧ Keeps after env path ∧
      after.isThere env.workingDir path ∧
      after.contents env.workingDir path = .ok raw.render := by
  obtain ⟨made, place, hmade, hplace⟩ := h.written
  exact ⟨_, store_of_writePlace h.named hmade hplace raw,
    ⟨h.named, _, place, writePlace?_of_stored hmade hplace raw.render⟩,
    FileTree.isThere_of_writePlace hplace _, FileTree.contents_of_writePlace hplace _⟩

end KconfigQuery.Settings
