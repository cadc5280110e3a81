/-! # Cutting a text at a character

`cut? sep` parts a text at its first `sep`; `pieces sep` parts it at every `sep`, and
`joinPieces sep` puts the pieces together again.  `replaceAll` exchanges one text for another
wherever it occurs.

* `cut?_eq_some_iff`     the two sides of a cut, and that the left one has no `sep`
* `cut?_eq_none_iff`     there is nothing to cut exactly when `sep` does not occur
* `joinPieces_append`    joined pieces have a `sep` after them where others follow
* `joinPieces_pieces`    joining the pieces gives the text back
* `pieces_joinPieces`    pieces without `sep` are found again
* `pieces_append`        the pieces around a `sep` do not depend on each other
* `pieces_join_lines`    lines that all have their end are found again -/

namespace KconfigQuery.Text

variable {α : Type}

/-! ## Joining -/

/-- The pieces in order with `sep` between each two. -/
def joinPieces (sep : α) : List (List α) → List α
  | [] => []
  | [p] => p
  | p :: ps => p ++ sep :: joinPieces sep ps

theorem joinPieces_cons {sep : α} {p : List α} {ps : List (List α)} (h : ps ≠ []) :
    joinPieces sep (p :: ps) = p ++ sep :: joinPieces sep ps := by
  cases ps with
  | nil => exact absurd rfl h
  | cons q qs => rfl

/-- **Joining** two lists of pieces puts a `sep` between them. -/
theorem joinPieces_append {sep : α} {ps qs : List (List α)} (hps : ps ≠ []) (hqs : qs ≠ []) :
    joinPieces sep (ps ++ qs) = joinPieces sep ps ++ sep :: joinPieces sep qs := by
  induction ps with
  | nil => exact absurd rfl hps
  | cons p ps ih =>
    cases ps with
    | nil => exact joinPieces_cons hqs
    | cons q ps =>
      have hne : q :: ps ≠ [] := List.cons_ne_nil q ps
      rw [joinPieces_cons hne, List.cons_append, joinPieces_cons (by simp), ih hne,
        List.append_assoc, List.cons_append]

/-- With a `sep` at its end, every piece has one after it. -/
theorem joinPieces_append_sep {sep : α} {ps : List (List α)} (h : ps ≠ []) :
    joinPieces sep ps ++ [sep] = ps.flatMap (· ++ [sep]) := by
  induction ps with
  | nil => exact absurd rfl h
  | cons p ps ih =>
    by_cases hps : ps = []
    · subst hps
      simp [joinPieces]
    · rw [joinPieces_cons hps, List.flatMap_cons, ← ih hps]
      simp

/-- Pieces before others are followed by a `sep` each. -/
theorem joinPieces_append_eq_flatMap {sep : α} (ps : List (List α)) {qs : List (List α)}
    (hqs : qs ≠ []) :
    joinPieces sep (ps ++ qs) = ps.flatMap (· ++ [sep]) ++ joinPieces sep qs := by
  by_cases hps : ps = []
  · subst hps
    rfl
  · rw [joinPieces_append hps hqs, ← joinPieces_append_sep hps]
    simp

variable [DecidableEq α]

/-! ## The first separator -/

/-- The text before and after the first `sep`, if there is one. -/
def cut? (sep : α) : List α → Option (List α × List α)
  | [] => none
  | c :: cs =>
    if c = sep then some ([], cs)
    else (cut? sep cs).map fun (left, right) => (c :: left, right)

/-- A text with a `sep` after it that it has not is cut there. -/
theorem cut?_append {sep : α} {left : List α} (h : sep ∉ left) (right : List α) :
    cut? sep (left ++ sep :: right) = some (left, right) := by
  induction left with
  | nil => simp [cut?]
  | cons c left ih =>
    simp only [List.mem_cons, not_or] at h
    simp [cut?, Ne.symm h.1, ih h.2]

/-- **The first cut**: what is before it has no `sep`, and all three parts make up the text. -/
theorem cut?_eq_some_iff {sep : α} {cs left right : List α} :
    cut? sep cs = some (left, right) ↔ cs = left ++ sep :: right ∧ sep ∉ left := by
  refine ⟨?_, fun ⟨h, hl⟩ => h ▸ cut?_append hl right⟩
  induction cs generalizing left with
  | nil => simp [cut?]
  | cons c cs ih =>
    intro h
    unfold cut? at h
    split at h
    · next hc =>
      simp only [Option.some.injEq, Prod.mk.injEq] at h
      obtain ⟨rfl, rfl⟩ := h
      simp [hc]
    · next hc =>
      -- The separator is further to the right, and the left side starts with `c`.
      obtain ⟨⟨l, r⟩, hcut, hpair⟩ := Option.map_eq_some_iff.mp h
      simp only [Prod.mk.injEq] at hpair
      obtain ⟨rfl, rfl⟩ := hpair
      obtain ⟨rfl, hl⟩ := ih hcut
      exact ⟨rfl, by simp [Ne.symm hc, hl]⟩

/-- There is nothing to cut iff `sep` does not occur. -/
theorem cut?_eq_none_iff {sep : α} {cs : List α} : cut? sep cs = none ↔ sep ∉ cs := by
  induction cs with
  | nil => simp [cut?]
  | cons c cs ih =>
    by_cases hc : c = sep
    · simp [cut?, hc]
    · simp [cut?, hc, ih, Ne.symm hc]

/-! ## All separators -/

/-- The texts between consecutive `sep`s: one more than there are `sep`s. -/
def pieces (sep : α) : List α → List (List α)
  | [] => [[]]
  | c :: cs =>
    if c = sep then [] :: pieces sep cs
    else
      match pieces sep cs with
      | [] => [[c]]
      | p :: ps => (c :: p) :: ps

theorem pieces_ne_nil (sep : α) (cs : List α) : pieces sep cs ≠ [] := by
  cases cs with
  | nil => simp [pieces]
  | cons c cs =>
    unfold pieces
    split
    · simp
    · split <;> simp

/-- The pieces of a text are joined to this text. -/
theorem joinPieces_pieces (sep : α) (cs : List α) : joinPieces sep (pieces sep cs) = cs := by
  induction cs with
  | nil => rfl
  | cons c cs ih =>
    unfold pieces
    split
    · next hc => rw [joinPieces_cons (pieces_ne_nil sep cs), ih, hc]; rfl
    · split
      · next h => exact absurd h (pieces_ne_nil sep cs)
      · next p ps h =>
        rw [h] at ih
        cases ps with
        | nil => simpa [joinPieces] using ih
        | cons q qs =>
          rw [joinPieces_cons (by simp)] at ih ⊢
          rw [List.cons_append, ih]

/-- A text without `sep` is one piece. -/
theorem pieces_of_notMem {sep : α} {cs : List α} (h : sep ∉ cs) : pieces sep cs = [cs] := by
  induction cs with
  | nil => rfl
  | cons c cs ih =>
    simp only [List.mem_cons, not_or] at h
    simp [pieces, Ne.symm h.1, ih h.2]

/-- Pieces without `sep` do not fall into further ones. -/
theorem flatMap_pieces_of_notMem {sep : α} {ps : List (List α)} (h : ∀ p ∈ ps, sep ∉ p) :
    ps.flatMap (pieces sep) = ps := by
  induction ps with
  | nil => rfl
  | cons p ps ih =>
    rw [List.flatMap_cons, pieces_of_notMem (h p List.mem_cons_self),
      ih fun q hq => h q (List.mem_cons_of_mem _ hq)]
    rfl

/-- The pieces around a `sep` do not depend on each other. -/
theorem pieces_append (sep : α) (cs ds : List α) :
    pieces sep (cs ++ sep :: ds) = pieces sep cs ++ pieces sep ds := by
  induction cs with
  | nil => simp [pieces]
  | cons c cs ih =>
    rw [List.cons_append]
    by_cases hc : c = sep
    · simp [pieces, hc, ih]
    · -- The character goes to the first piece, and there is one.
      have hne := pieces_ne_nil sep cs
      simp only [pieces, if_neg hc, ih]
      cases h : pieces sep cs with
      | nil => exact absurd h hne
      | cons p ps => simp

/-- No piece has a `sep`. -/
theorem notMem_of_mem_pieces {sep : α} {cs p : List α} (h : p ∈ pieces sep cs) :
    sep ∉ p := by
  -- Induction on the text: a `sep` ends a piece, and any other character goes to the first one.
  induction cs generalizing p with
  | nil => simp [pieces] at h; simp [h]
  | cons c cs ih =>
    by_cases hc : c = sep
    · simp only [pieces, if_pos hc, List.mem_cons] at h
      rcases h with rfl | h
      · simp
      · exact ih h
    · cases hp : pieces sep cs with
      | nil => exact absurd hp (pieces_ne_nil sep cs)
      | cons q qs =>
        simp only [pieces, if_neg hc, hp, List.mem_cons] at h
        rcases h with rfl | h
        · simp [Ne.symm hc, ih (p := q) (by simp [hp])]
        · exact ih (by simp [hp, h])

/-- **Pieces** without `sep` are found again after they were joined. -/
theorem pieces_joinPieces {sep : α} {ps : List (List α)} (hne : ps ≠ [])
    (h : ∀ p ∈ ps, sep ∉ p) : pieces sep (joinPieces sep ps) = ps := by
  induction ps with
  | nil => exact absurd rfl hne
  | cons p ps ih =>
    cases ps with
    | nil => exact pieces_of_notMem (h p (by simp))
    | cons q qs =>
      rw [joinPieces_cons (by simp), pieces_append, pieces_of_notMem (h p (by simp)),
        ih (by simp) fun r hr => h r (List.mem_cons_of_mem _ hr)]
      rfl

/-- Pieces that each end with a `sep` are found again, and an empty one after the last `sep`. -/
theorem pieces_flatMap_concat {sep : α} {ps : List (List α)} (h : ∀ p ∈ ps, sep ∉ p) :
    pieces sep (ps.flatMap (· ++ [sep])) = ps ++ [[]] := by
  induction ps with
  | nil => rfl
  | cons p ps ih =>
    have hp : sep ∉ p := h p List.mem_cons_self
    have hps := ih fun q hq => h q (List.mem_cons_of_mem _ hq)
    rw [List.flatMap_cons, List.append_assoc, List.singleton_append, pieces_append,
      pieces_of_notMem hp, hps]
    rfl

/-- A text of lines is taken apart into these lines, and an empty one after the last line end. -/
theorem pieces_join_lines {lines : List String} (h : ∀ line ∈ lines, '\n' ∉ line.toList) :
    pieces '\n' (String.join (lines.map fun line => line ++ "\n")).toList =
      lines.map String.toList ++ [[]] := by
  have htext : (String.join (lines.map fun line => line ++ "\n")).toList =
      (lines.map String.toList).flatMap (· ++ ['\n']) := by
    simp [String.toList_join, List.flatMap_map]
  rw [htext]
  refine pieces_flatMap_concat ?_
  intro cs hcs
  obtain ⟨line, hline, rfl⟩ := List.mem_map.mp hcs
  exact h line hline

/-! ## Replacing -/

/-- The text with every occurrence of `old` exchanged for `new`, read from the left, without
    overlaps.  An empty `old` occurs nowhere. -/
def replaceAll (old new : List α) (cs : List α) : List α :=
  if old = [] then cs else go 0 cs
where
  /-- The first argument counts the characters of a found occurrence still to be skipped. -/
  go : Nat → List α → List α
    | _, [] => []
    | skip + 1, _ :: cs => go skip cs
    | 0, c :: cs =>
      if old.isPrefixOf (c :: cs) then new ++ go (old.length - 1) cs
      else c :: go 0 cs

end KconfigQuery.Text
