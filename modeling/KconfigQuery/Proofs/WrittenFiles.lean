import KconfigQuery.FileTree.Change

/-! # Reading what was written

A path that is to be written leads to a file or to a free name in a directory.  Writing puts a file
at that place, and no other place changes, so every way that led there leads there still, and what
is found is the text that was written.

* `agrees_of_walk`        what a walk says about where it ends is so
* `walk_put`              a walk after something is put at a place leads where it led before
* `exists_writePlace`     a file that was written has a place, if it went anywhere
* `contents_of_writePlace`   a file that was written is read as its text -/

namespace KconfigQuery.FileTree

/-- Where a file is put, if a walk ends so that one can be. -/
def Destination.writePlace? : Destination → Option Place
  | found place (.file _) => some place
  | vacant directory name false => some (directory ++ [name])
  | _ => none

/-- Nothing but a file stands at the place. -/
structure Writable (tree : FileTree) (place : Place) : Prop where
  ne_root : place ≠ []
  not_directory : tree.node? place ≠ some .directory
  not_link : ∀ target, tree.node? place ≠ some (.link target)

variable {tree : FileTree} {target : Place}

private theorem Writable.node?_put_self (h : tree.Writable target) (node : Node) :
    (tree.put target node).node? target = some node := by
  rw [node?_put tree h.ne_root, if_pos rfl]

private theorem Writable.node?_put_of_ne (h : tree.Writable target) (node : Node) {place : Place}
    (hp : place ≠ target) : (tree.put target node).node? place = tree.node? place := by
  rw [node?_put tree h.ne_root, if_neg hp]

/-- Directories stay, for nothing is put where one is. -/
private theorem Writable.directory_put (h : tree.Writable target) (node : Node) {place : Place}
    (hp : tree.node? place = some .directory) :
    (tree.put target node).node? place = some .directory := by
  rw [h.node?_put_of_ne node, hp]
  rintro rfl
  exact h.not_directory hp

/-- Links stay, for nothing is put where one is. -/
private theorem Writable.link_put (h : tree.Writable target) (node : Node) {place : Place}
    {next : String}
    (hp : tree.node? place = some (.link next)) :
    (tree.put target node).node? place = some (.link next) := by
  rw [h.node?_put_of_ne node, hp]
  rintro rfl
  exact h.not_link next hp

/-! ## Walks -/

section Step

variable {aim : Aim} {place : Place} {name : String} {rest : List String}
  (hdir : tree.node? place = some .directory) (hname : ¬(name = "" ∨ name = "."))
  (hup : ¬name = "..") (hslash : ¬(aim = .file ∧ rest = [""]))
  (hsize : ¬maxNameSize < name.utf8ByteSize)

include hdir hname hup hslash hsize

/-- Nothing has the name. -/
private theorem walk_of_none (hnone : tree.node? (place ++ [name]) = none) (links : Nat) :
    walk tree aim links place (name :: rest) =
      if rest = [] then .ok (.vacant place name false)
      else if rest = [""] then .ok (.vacant place name true)
      else .error .notFound := by
  rw [walk, if_neg (by simp [hdir]), if_neg hname, if_neg hup, if_neg hslash, if_neg hsize]
  simp only [hnone]

/-- A link has the name, and it is what the walk is for. -/
private theorem walk_of_link_last {next : String}
    (hlink : tree.node? (place ++ [name]) = some (.link next))
    (hlast : rest = [] ∧ aim = .entry) (links : Nat) :
    walk tree aim links place (name :: rest) = .ok (.found (place ++ [name]) (.link next)) := by
  rw [walk, if_neg (by simp [hdir]), if_neg hname, if_neg hup, if_neg hslash, if_neg hsize]
  simp only [hlink, if_pos hlast]

/-- A link has the name, and the walk goes on where it leads. -/
theorem walk_of_link {next : String} (hlink : tree.node? (place ++ [name]) = some (.link next))
    (hlast : ¬(rest = [] ∧ aim = .entry)) (links : Nat) :
    walk tree aim (links + 1) place (name :: rest) =
      walk tree aim links (origin place next) (steps next ++ rest) := by
  rw [walk, if_neg (by simp [hdir]), if_neg hname, if_neg hup, if_neg hslash, if_neg hsize]
  simp only [hlink, if_neg hlast]

/-- Something else has the name, and the walk goes on there. -/
theorem walk_of_node {node : Node} (hnode : tree.node? (place ++ [name]) = some node)
    (hlink : ∀ next, node ≠ .link next) (links : Nat) :
    walk tree aim links place (name :: rest) = walk tree aim links (place ++ [name]) rest := by
  rw [walk, if_neg (by simp [hdir]), if_neg hname, if_neg hup, if_neg hslash, if_neg hsize]
  cases node with
  | link next => exact absurd rfl (hlink next)
  | _ => simp only [hnode]

end Step

/-- What a destination says about the tree. -/
def Destination.Agrees (tree : FileTree) : Destination → Prop
  | found place node => tree.node? place = some node
  | vacant directory name _ => tree.node? (directory ++ [name]) = none
  | removed => True

/-- **What a walk says** about where it ends is so in the tree. -/
theorem agrees_of_walk {aim : Aim} {links : Nat} {place : Place} {names : List String}
    {destination : Destination} (h : walk tree aim links place names = .ok destination) :
    destination.Agrees tree := by
  -- Along the walk; only its last step says anything about the tree.
  fun_induction walk tree aim links place names with
  | case1 links place node hnode => cases h; exact hnode
  | case4 links place name rest hdir hname ih => exact ih h
  | case5 links place rest hdir hname ih => exact ih h
  | case8 links place name hdir hname hup hsize hnone => cases h; exact hnone
  | case9 => cases h; assumption
  | case11 => cases h; assumption
  | case13 place name rest hdir hname hup hslash hsize next hlink hlast links ih => exact ih h
  | case14 links place name rest hdir hname hup hslash hsize node hnode hsome ih => exact ih h
  | _ => cases h

/-- Where a walk ends when a node has been put at a place. -/
def Destination.after (target : Place) (node : Node) : Destination → Destination
  | found place old => found place (if place = target then node else old)
  | vacant directory name slashed =>
    if directory ++ [name] = target then found target node else vacant directory name slashed
  | removed => removed

/-- A walk takes the same way when something that is no link is put where no directory and no link
    is.  Where a slash follows a free name, it has to be a directory. -/
theorem walk_put {aim : Aim} {links : Nat} {place : Place} {names : List String}
    {destination : Destination} (hwritable : tree.Writable target) (node : Node)
    (hnode : ∀ next, node ≠ .link next)
    (hslashed : ∀ directory name, destination = .vacant directory name true → node = .directory)
    (h : walk tree aim links place names = .ok destination) :
    walk (tree.put target node) aim links place names = .ok (destination.after target node) := by
  fun_induction walk tree aim links place names with
  | case1 links place old hold =>
    -- The names are used up.
    cases h
    rw [walk, Destination.after]
    by_cases heq : place = target
    · subst heq
      rw [hwritable.node?_put_self, if_pos rfl]
    · rw [hwritable.node?_put_of_ne node heq, hold, if_neg heq]
  | case4 links place name rest hdir hname ih =>
    -- Steps within directories stay the same, for no directory is written over.
    have hdir' := hwritable.directory_put node (Decidable.not_not.mp hdir)
    rw [walk, if_neg (by simp [hdir']), if_pos hname, ih h]
  | case5 links place rest hdir hname ih =>
    have hdir' := hwritable.directory_put node (Decidable.not_not.mp hdir)
    rw [walk, if_neg (by simp [hdir']), if_neg hname, if_pos rfl, ih h]
  | case8 links place name hdir hname hup hsize hnone hslash =>
    -- The last name is free still, unless that is where the node is.
    cases h
    have hdir' := hwritable.directory_put node (Decidable.not_not.mp hdir)
    by_cases heq : place ++ [name] = target
    · subst heq
      have hput := hwritable.node?_put_self node
      rw [walk_of_node hdir' hname hup hslash hsize hput hnode, Destination.after, if_pos rfl, walk,
        hput]
    · have hfree := (hwritable.node?_put_of_ne node heq).trans hnone
      rw [walk_of_none hdir' hname hup hslash hsize hfree, if_pos rfl, Destination.after,
        if_neg heq]
  | case9 links place name hdir hname hup hsize hnone hslash =>
    -- A slash follows the free name, so it has to be a directory that comes there.
    cases h
    obtain rfl := hslashed place name rfl
    have hdir' := hwritable.directory_put .directory (Decidable.not_not.mp hdir)
    by_cases heq : place ++ [name] = target
    · subst heq
      have hput := hwritable.node?_put_self .directory
      rw [walk_of_node hdir' hname hup hslash hsize hput hnode, Destination.after, if_pos rfl,
        walk, if_neg (by simp [hput]), if_pos (.inl rfl), walk, hput]
    · have hfree := (hwritable.node?_put_of_ne .directory heq).trans hnone
      rw [walk_of_none hdir' hname hup hslash hsize hfree, if_neg (by simp), if_pos rfl,
        Destination.after, if_neg heq]
  | case11 links place name rest hdir hname hup hslash hsize next hlink hlast =>
    -- The walk is for the link itself, which is still there.
    cases h
    have hdir' := hwritable.directory_put node (Decidable.not_not.mp hdir)
    have hne : place ++ [name] ≠ target := by
      rintro rfl
      exact hwritable.not_link next hlink
    rw [walk_of_link_last hdir' hname hup hslash hsize (hwritable.link_put node hlink) hlast,
      Destination.after, if_neg hne]
  | case13 place name rest hdir hname hup hslash hsize next hlink hlast links ih =>
    -- A link on the way is still there and leads on as before.
    have hdir' := hwritable.directory_put node (Decidable.not_not.mp hdir)
    rw [walk_of_link hdir' hname hup hslash hsize (hwritable.link_put node hlink) hlast, ih h]
  | case14 links place name rest hdir hname hup hslash hsize old hold hsome ih =>
    -- What stands there is no link, whether it is the node now put there or not.
    have hdir' := hwritable.directory_put node (Decidable.not_not.mp hdir)
    obtain ⟨new, hnew, hnolink⟩ : ∃ new,
        (tree.put target node).node? (place ++ [name]) = some new ∧
          ∀ next, new ≠ .link next := by
      by_cases heq : place ++ [name] = target
      · exact ⟨node, heq ▸ hwritable.node?_put_self node, hnode⟩
      · exact ⟨old, (hwritable.node?_put_of_ne node heq).trans hsome, fun next h => hold next h⟩
    rw [walk_of_node hdir' hname hup hslash hsize hnew hnolink, ih h]
  | _ => cases h

/-- What a walk finds is found by a walk for what it leads to, unless it is a link. -/
private theorem walk_node {aim : Aim} {links : Nat} {place found : Place} {names : List String}
    {node : Node} (hnode : ∀ next, node ≠ .link next)
    (h : walk tree aim links place names = .ok (.found found node)) :
    walk tree .node links place names = .ok (.found found node) := by
  -- Along the walk, which differs in the last step only, and there only for a link.
  fun_induction walk tree aim links place names with
  | case1 links place old hold => rw [walk, hold, ← h]
  | case4 links place name rest hdir hname ih => rw [walk, if_neg hdir, if_pos hname, ih h]
  | case5 links place rest hdir hname ih =>
    rw [walk, if_neg hdir, if_neg hname, if_pos rfl, ih h]
  | case8 => cases h
  | case9 => cases h
  | case11 links place name rest hdir hname hup hslash hsize next hlink hlast =>
    cases h
    exact absurd rfl (hnode next)
  | case13 place name rest hdir hname hup hslash hsize next hlink hlast links ih =>
    rw [walk_of_link (Decidable.not_not.mp hdir) hname hup (by simp) hsize hlink (by simp), ih h]
  | case14 links place name rest hdir hname hup hslash hsize old hold hsome ih =>
    rw [walk_of_node (Decidable.not_not.mp hdir) hname hup (by simp) hsize hsome hold, ih h]
  | _ => cases h

/-! ## Paths -/

variable {workingDir : WorkingDir} {path : String}

/-- Names lead somewhere by a walk, or by staying in a working directory that was removed. -/
theorem follow_eq_ok_iff {aim : Aim} {names : List String} {destination : Destination} :
    follow tree workingDir aim path names = .ok destination ↔
      pathProblem? path = none ∧
        (leave (start workingDir path).lost names = .ok none ∧ destination = .removed ∨
          ∃ rest, leave (start workingDir path).lost names = .ok (some rest) ∧
            walk tree aim maxLinks (start workingDir path).place rest = .ok destination) := by
  unfold follow
  cases pathProblem? path with
  | some cause => simp
  | none =>
    cases leave (start workingDir path).lost names with
    | error cause => simp
    | ok rest? => cases rest? <;> simp [eq_comm]

/-- What a path says about where it leads is so in the tree. -/
theorem agrees_of_follow {aim : Aim} {names : List String} {destination : Destination}
    (h : follow tree workingDir aim path names = .ok destination) : destination.Agrees tree := by
  obtain ⟨-, ⟨-, rfl⟩ | ⟨rest, -, hwalk⟩⟩ := follow_eq_ok_iff.mp h
  · exact trivial
  · exact agrees_of_walk hwalk

/-- A path takes the same way when something that is no link is put where no directory and no link
    is. -/
theorem follow_put {aim : Aim} {names : List String} {destination : Destination}
    (hwritable : tree.Writable target) (node : Node) (hnode : ∀ next, node ≠ .link next)
    (hslashed : ∀ directory name, destination = .vacant directory name true → node = .directory)
    (h : follow tree workingDir aim path names = .ok destination) :
    follow (tree.put target node) workingDir aim path names =
      .ok (destination.after target node) := by
  rw [follow_eq_ok_iff] at h ⊢
  obtain ⟨hproblem, ⟨hleave, rfl⟩ | ⟨rest, hleave, hwalk⟩⟩ := h
  · exact ⟨hproblem, .inl ⟨hleave, rfl⟩⟩
  · exact ⟨hproblem, .inr ⟨rest, hleave, walk_put hwritable node hnode hslashed hwalk⟩⟩

/-- What a path finds is found by looking for what it leads to, unless it is a link. -/
theorem follow_node {aim : Aim} {names : List String} {found : Place} {node : Node}
    (hnode : ∀ next, node ≠ .link next)
    (h : follow tree workingDir aim path names = .ok (.found found node)) :
    follow tree workingDir .node path names = .ok (.found found node) := by
  rw [follow_eq_ok_iff] at h ⊢
  obtain ⟨hproblem, ⟨hleave, heq⟩ | ⟨rest, hleave, hwalk⟩⟩ := h
  · cases heq
  · exact ⟨hproblem, .inr ⟨rest, hleave, walk_node hnode hwalk⟩⟩

/-- The place where a path lets a file be written. -/
def writePlace? (tree : FileTree) (workingDir : WorkingDir) (path : String) : Option Place :=
  match tree.locate workingDir .file path with
  | .ok destination => destination.writePlace?
  | .error _ => none

/-- What is written at the path goes nowhere. -/
def LeadsToSink (tree : FileTree) (workingDir : WorkingDir) (path : String) : Prop :=
  ∃ place, tree.locate workingDir .file path = .ok (.found place .sink)

/-- A file can be written where a path leads to one, or to a free name with no slash after it. -/
theorem writePlace?_eq_some_iff :
    tree.writePlace? workingDir path = some target ↔
      (∃ text, tree.locate workingDir .file path = .ok (.found target (.file text))) ∨
        ∃ directory name, tree.locate workingDir .file path = .ok (.vacant directory name false) ∧
          directory ++ [name] = target := by
  unfold writePlace?
  cases tree.locate workingDir .file path with
  | error cause => simp
  | ok destination =>
    cases destination with
    | found place node => cases node <;> simp [Destination.writePlace?, eq_comm]
    | vacant directory name slashed =>
      cases slashed with
      | true => simp [Destination.writePlace?]
      | false =>
        simp only [Destination.writePlace?, Option.some.injEq, Except.ok.injEq, reduceCtorEq,
          exists_false, false_or, Destination.vacant.injEq, and_true]
        constructor
        · intro heq
          exact ⟨directory, name, ⟨rfl, rfl⟩, heq⟩
        · rintro ⟨_, _, ⟨rfl, rfl⟩, heq⟩
          exact heq
    | removed => simp [Destination.writePlace?]

/-- **A file that was written** was put at the place that its path leads to, unless it went nowhere.
    -/
theorem exists_writePlace {after : FileTree} {text : String}
    (h : tree.writeFile workingDir path text = .ok after)
    (hsink : ¬after.LeadsToSink workingDir path) :
    ∃ place, tree.writePlace? workingDir path = some place ∧
      after = tree.put place (.file text) := by
  unfold writeFile at h
  split at h
  · next place old hlocate =>
    cases h
    exact ⟨place, writePlace?_eq_some_iff.mpr (.inl ⟨old, hlocate⟩), rfl⟩
  · next directory name hlocate =>
    cases h
    exact ⟨directory ++ [name],
      writePlace?_eq_some_iff.mpr (.inr ⟨directory, name, hlocate, rfl⟩), rfl⟩
  · next place hlocate =>
    cases h
    exact absurd ⟨place, hlocate⟩ hsink
  · cases h
  · cases h

/-- A file is written at the place that its path leads to. -/
theorem writeFile_of_writePlace (h : tree.writePlace? workingDir path = some target)
    (text : String) :
    tree.writeFile workingDir path text = .ok (tree.put target (.file text)) := by
  rw [writeFile]
  rcases writePlace?_eq_some_iff.mp h with ⟨old, hlocate⟩ | ⟨directory, name, hlocate, rfl⟩
  · rw [hlocate]
  · rw [hlocate]

/-- Where a file can be written there is no directory and no link, and it is not the root. -/
theorem writable_of_writePlace (h : tree.writePlace? workingDir path = some target) :
    tree.Writable target := by
  rcases writePlace?_eq_some_iff.mp h with ⟨old, hlocate⟩ | ⟨directory, name, hlocate, rfl⟩
  · -- A file stands there, or nothing does.
    have hfile : tree.node? target = some (.file old) := agrees_of_follow hlocate
    refine ⟨?_, by simp [hfile], by simp [hfile]⟩
    rintro rfl
    simp at hfile
  · have hfree : tree.node? (directory ++ [name]) = none := agrees_of_follow hlocate
    exact ⟨by simp, by simp [hfree], by simp [hfree]⟩

/-- After a file was written at a path, the path leads to it when it is to be written again. -/
theorem locate_of_writePlace (h : tree.writePlace? workingDir path = some target) (text : String) :
    (tree.put target (.file text)).locate workingDir .file path =
      .ok (.found target (.file text)) := by
  have hwritable := writable_of_writePlace h
  rcases writePlace?_eq_some_iff.mp h with ⟨old, hlocate⟩ | ⟨directory, name, hlocate, rfl⟩
  · have hput := follow_put hwritable (.file text) (by simp) (by simp) hlocate
    rwa [Destination.after, if_pos rfl] at hput
  · have hput := follow_put hwritable (.file text) (by simp) (by simp) hlocate
    rwa [Destination.after, if_pos rfl] at hput

/-- After a file was written at a path, the path leads to it. -/
private theorem lookUp_of_writePlace (h : tree.writePlace? workingDir path = some target)
    (text : String) :
    (tree.put target (.file text)).lookUp workingDir .node path = .ok (.file text) := by
  have hfound : (tree.put target (.file text)).locate workingDir .node path =
      .ok (.found target (.file text)) := follow_node (by simp) (locate_of_writePlace h text)
  rw [lookUp, hfound]

/-- **A file that was written** is read as its text. -/
theorem contents_of_writePlace (h : tree.writePlace? workingDir path = some target)
    (text : String) :
    (tree.put target (.file text)).contents workingDir path = .ok text := by
  rw [contents, lookUp_of_writePlace h]

/-- A file that was written is there. -/
theorem isThere_of_writePlace (h : tree.writePlace? workingDir path = some target)
    (text : String) :
    (tree.put target (.file text)).isThere workingDir path = true := by
  rw [isThere, lookUp_of_writePlace h]

end KconfigQuery.FileTree
