/-! # Stripping the ends of a text, and blank characters

Two kinds of text lose characters at their ends here: option lines lose blanks, and option
values lose double quotes.  Both are `stripEnds p`, which removes the longest run of characters
satisfying `p` at either end and keeps the middle as it is.

* `stripEnds_of_bare`    a text with bare ends is kept
* `bare_stripEnds`       the result always has bare ends
* `exists_stripEnds`     what is removed satisfies `p`, and nothing else is removed
* `stripEnds_append`     whatever satisfies `p` around a text with bare ends is removed
* `stripEnds_around`     so it makes no difference around any text -/

namespace KconfigQuery.Text

variable {α : Type}

/-! ## Stripping -/

/-- Drop the longest run of elements satisfying `p` at the end. -/
def dropEndWhile (p : α → Bool) (cs : List α) : List α :=
  (cs.reverse.dropWhile p).reverse

/-- Drop the longest runs of characters satisfying `p` at both ends. -/
def stripEnds (p : α → Bool) (cs : List α) : List α :=
  dropEndWhile p (cs.dropWhile p)

/-- Neither end of the text satisfies `p`. -/
def BareEnds (p : α → Bool) (cs : List α) : Prop :=
  (∀ c ∈ cs.head?, p c = false) ∧ ∀ c ∈ cs.getLast?, p c = false

instance (p : α → Bool) (cs : List α) : Decidable (BareEnds p cs) :=
  inferInstanceAs (Decidable (_ ∧ _))

/-- What is left of a text does not start with what was dropped. -/
private theorem head?_dropWhile_bare (p : α → Bool) (cs : List α) :
    ∀ c ∈ (cs.dropWhile p).head?, p c = false := by
  induction cs with
  | nil => simp
  | cons c cs ih =>
    rw [List.dropWhile_cons]
    split
    · exact ih
    · next h => intro d hd; simp at hd; subst hd; simpa using h

/-- Of a text that starts otherwise nothing is dropped. -/
private theorem dropWhile_of_bare_head {p : α → Bool} {cs : List α}
    (h : ∀ c ∈ cs.head?, p c = false) : cs.dropWhile p = cs := by
  cases cs with
  | nil => rfl
  | cons c cs => simp [h c (by simp)]

theorem stripEnds_of_bare {p : α → Bool} {cs : List α} (h : BareEnds p cs) :
    stripEnds p cs = cs := by
  unfold stripEnds dropEndWhile
  rw [dropWhile_of_bare_head h.1, dropWhile_of_bare_head (by simpa using h.2), List.reverse_reverse]

/-- What `dropEndWhile` removes is a final run of characters satisfying `p`. -/
theorem exists_dropEndWhile (p : α → Bool) (cs : List α) :
    ∃ w, (∀ c ∈ w, p c = true) ∧ cs = dropEndWhile p cs ++ w := by
  refine ⟨(cs.reverse.takeWhile p).reverse, ?_, ?_⟩
  · intro c hc
    exact List.all_eq_true.mp (List.all_takeWhile (p := p) (l := cs.reverse)) c (by simpa using hc)
  · unfold dropEndWhile
    rw [← List.reverse_append, List.takeWhile_append_dropWhile, List.reverse_reverse]

/-- **Stripping** leaves a text with bare ends. -/
theorem bare_stripEnds (p : α → Bool) (cs : List α) : BareEnds p (stripEnds p cs) := by
  refine ⟨?_, ?_⟩
  · intro c hc
    obtain ⟨w, -, hw⟩ := exists_dropEndWhile p (cs.dropWhile p)
    -- Dropping at the end does not change the start, unless nothing is left.
    apply head?_dropWhile_bare p cs
    rw [hw]
    change c ∈ (dropEndWhile p (cs.dropWhile p)).head? at hc
    cases h : dropEndWhile p (cs.dropWhile p) with
    | nil => rw [h] at hc; simp at hc
    | cons d ds => rw [h] at hc; simpa using hc
  · intro c hc
    unfold stripEnds dropEndWhile at hc
    rw [List.getLast?_reverse] at hc
    exact head?_dropWhile_bare p _ c hc

/-- Every text is its stripped form between two runs of characters satisfying `p`. -/
theorem exists_stripEnds (p : α → Bool) (cs : List α) :
    ∃ before after, (∀ c ∈ before, p c = true) ∧ (∀ c ∈ after, p c = true) ∧
      cs = before ++ stripEnds p cs ++ after := by
  obtain ⟨after, ha, hcs⟩ := exists_dropEndWhile p (cs.dropWhile p)
  refine ⟨cs.takeWhile p, after, ?_, ha, ?_⟩
  · intro c hc
    exact List.all_eq_true.mp (List.all_takeWhile (p := p) (l := cs)) c hc
  · unfold stripEnds
    rw [List.append_assoc, ← hcs, List.takeWhile_append_dropWhile]

/-- What is stripped off around a text with bare ends is all that is stripped off. -/
theorem stripEnds_append {p : α → Bool} {before middle after : List α}
    (hb : ∀ c ∈ before, p c = true) (hm : BareEnds p middle) (ha : ∀ c ∈ after, p c = true) :
    stripEnds p (before ++ middle ++ after) = middle := by
  have hafter : ∀ c ∈ after.reverse, p c = true := fun c hc => ha c (List.mem_reverse.mp hc)
  unfold stripEnds dropEndWhile
  rw [List.append_assoc, List.dropWhile_append_of_pos hb]
  cases middle with
  | nil =>
    -- Nothing stays in the middle, so the rest goes at once.
    rw [List.nil_append, ← List.append_nil after, List.dropWhile_append_of_pos ha]
    rfl
  | cons c cs =>
    have hc : ¬p c = true := by simp [hm.1 c rfl]
    have hlast : ∀ d ∈ (c :: cs).reverse.head?, p d = false := by
      rw [List.head?_reverse]
      exact hm.2
    rw [List.cons_append, List.dropWhile_cons_of_neg hc, ← List.cons_append, List.reverse_append,
      List.dropWhile_append_of_pos hafter, dropWhile_of_bare_head hlast, List.reverse_reverse]

/-- Whatever satisfies `p` around a text does not change what is left of it. -/
theorem stripEnds_around {p : α → Bool} {before after : List α}
    (hb : ∀ c ∈ before, p c = true) (ha : ∀ c ∈ after, p c = true) (cs : List α) :
    stripEnds p (before ++ cs ++ after) = stripEnds p cs := by
  obtain ⟨w₁, w₂, hw₁, hw₂, hcs⟩ := exists_stripEnds p cs
  have hbare := bare_stripEnds p cs
  generalize stripEnds p cs = middle at hcs hbare ⊢
  subst hcs
  -- What is stripped off the text joins what stands around it.
  have hbefore : ∀ c ∈ before ++ w₁, p c = true := List.forall_mem_append.mpr ⟨hb, hw₁⟩
  have hafter : ∀ c ∈ w₂ ++ after, p c = true := List.forall_mem_append.mpr ⟨hw₂, ha⟩
  have hstrip := stripEnds_append hbefore hbare hafter
  simpa only [List.append_assoc] using hstrip

/-- Stripping adds no character. -/
theorem mem_of_mem_stripEnds {p : α → Bool} {cs : List α} {c : α} (h : c ∈ stripEnds p cs) :
    c ∈ cs := by
  obtain ⟨before, after, -, -, hcs⟩ := exists_stripEnds p cs
  rw [hcs]
  exact List.mem_append_left _ (List.mem_append_right _ h)

/-- Stripping makes no text longer. -/
theorem length_stripEnds_le (p : α → Bool) (cs : List α) :
    (stripEnds p cs).length ≤ cs.length := by
  obtain ⟨before, after, -, -, hcs⟩ := exists_stripEnds p cs
  have hlength := congrArg List.length hcs
  simp only [List.length_append] at hlength
  omega

/-- A text that loses no character when it is stripped has bare ends. -/
theorem bare_of_length_stripEnds {p : α → Bool} {cs : List α}
    (h : cs.length ≤ (stripEnds p cs).length) : BareEnds p cs := by
  obtain ⟨before, after, -, -, hcs⟩ := exists_stripEnds p cs
  have hlength := congrArg List.length hcs
  simp only [List.length_append] at hlength
  have hbefore : before = [] := List.eq_nil_of_length_eq_zero (by omega)
  have hafter : after = [] := List.eq_nil_of_length_eq_zero (by omega)
  rw [hbefore, hafter, List.nil_append, List.append_nil] at hcs
  rw [hcs]
  exact bare_stripEnds p cs

theorem stripEnds_eq_self_iff {p : α → Bool} {cs : List α} :
    stripEnds p cs = cs ↔ BareEnds p cs :=
  ⟨fun h => h ▸ bare_stripEnds p cs, stripEnds_of_bare⟩

/-- What is stripped begins as before if it begins with a character that stays. -/
theorem head?_stripEnds {p : α → Bool} {c : α} (hc : p c = false) (cs : List α) :
    (stripEnds p (c :: cs)).head? = some c := by
  obtain ⟨before, after, hbefore, hafter, heq⟩ := exists_stripEnds p (c :: cs)
  cases before with
  | cons d before =>
    -- The first character would be stripped.
    have hd : c = d := by simpa using congrArg List.head? heq
    rw [← hd] at hbefore
    simp [hc] at hbefore
  | nil =>
    cases hmiddle : stripEnds p (c :: cs) with
    | nil =>
      rw [hmiddle, List.nil_append, List.nil_append] at heq
      have hp := hafter c (heq ▸ List.mem_cons_self)
      rw [hc] at hp
      cases hp
    | cons d middle =>
      rw [hmiddle, List.nil_append, List.cons_append, List.cons.injEq] at heq
      rw [heq.1]
      rfl

/-! ## Blanks -/

/-- The blank characters: tab to carriage return, space, no-break space, the byte order mark, the
    line and paragraph separators and the space separators of Unicode.  The next-line control
    U+0085 and the zero-width space U+200B are not blank. -/
def isBlank (c : Char) : Bool :=
  let n := c.toNat
  (0x09 ≤ n && n ≤ 0x0D) || n == 0x20 || n == 0xA0 || n == 0x1680 ||
    (0x2000 ≤ n && n ≤ 0x200A) || n == 0x2028 || n == 0x2029 || n == 0x202F || n == 0x205F ||
    n == 0x3000 || n == 0xFEFF

/-- Remove the blanks at both ends. -/
def trim (cs : List Char) : List Char :=
  stripEnds isBlank cs

end KconfigQuery.Text
