import KconfigQuery.Settings.Item

/-! # Fields that are read back

A field is written bare if it can be.  Writing puts a backslash before each semicolon and each
hash, and reading takes that backslash away again; but a backslash that was in the text already is
written as it is.  So a bare text is read back exactly when none of its backslashes has anything to
take the meaning from.  A text between quotes is always read back.  But a field with a line or
paragraph separator makes no entry at all, and half a surrogate pair is lost in a bare one.

* `scanned`                the scanner gives a bare text back exactly when it is inert
* `reread_eq_some_iff`     which settings are read as they were written
* `head?_reread`           whatever is read for an absolute path is an absolute path -/

namespace KconfigQuery.Settings.Field

open Text (Letter Wide isBlank)

/-! ## Bare texts -/

/-- A text as it is written without quotes. -/
def bare (cs : List Char) : List Char :=
  cs.flatMap fun c => if isComment c then ['\\', c] else [c]

/-- No backslash in the text stands right before a character that it would take the meaning
    from. -/
def Inert (cs : List Char) : Prop :=
  ∀ c, ['\\', c] <:+: cs → c ≠ '\\' ∧ isComment c = false

private theorem encode_of_needsQuotes {w : Wide} (h : needsQuotes w.chars) :
    encode w = Json.quote w :=
  if_pos h

private theorem encode_of_not_needsQuotes {w : Wide} (h : needsQuotes w.chars = false) :
    encode w = bare w.chars :=
  if_neg (by simp [h])

private theorem bare_cons (c : Char) (cs : List Char) :
    bare (c :: cs) = if isComment c then '\\' :: c :: bare cs else c :: bare cs := by
  by_cases h : isComment c <;> simp [bare, h]

private theorem inert_nil : Inert [] := by
  intro c h
  simp at h

/-- A character that is no backslash makes no difference in front of a text. -/
private theorem inert_cons_of_ne {c : Char} (h : c ≠ '\\') (cs : List Char) :
    Inert (c :: cs) ↔ Inert cs := by
  have hoccurs : ∀ d, ['\\', d] <:+: c :: cs ↔ ['\\', d] <:+: cs := by
    intro d
    -- An occurrence at the front would start with this character.
    rw [List.infix_cons_iff, List.cons_prefix_cons]
    simp [Ne.symm h]
  simp only [Inert, hoccurs]

/-- One backslash alone stands before nothing. -/
private theorem inert_backslash : Inert ['\\'] := by
  intro c h
  have hlength := h.length_le
  simp at hlength

/-- A backslash in front is inert if it stands before an ordinary character. -/
private theorem inert_backslash_cons (c : Char) (cs : List Char) :
    Inert ('\\' :: c :: cs) ↔ (c ≠ '\\' ∧ isComment c = false) ∧ Inert (c :: cs) := by
  have hoccurs : ∀ d, ['\\', d] <:+: '\\' :: c :: cs ↔ d = c ∨ ['\\', d] <:+: c :: cs := by
    intro d
    rw [List.infix_cons_iff, List.cons_prefix_cons, List.cons_prefix_cons]
    simp
  constructor
  · -- The backslash in front is one occurrence more, with the character after it.
    intro h
    exact ⟨h c ((hoccurs c).mpr (.inl rfl)), fun d hd => h d ((hoccurs d).mpr (.inr hd))⟩
  · rintro ⟨hc, hcs⟩ d hd
    rcases (hoccurs d).mp hd with rfl | hd
    · exact hc
    · exact hcs d hd

instance decidableInert : (cs : List Char) → Decidable (Inert cs)
  | [] => .isTrue inert_nil
  | c :: cs =>
    have := decidableInert cs
    if hc : c = '\\' then
      match cs with
      | [] => .isTrue (hc ▸ inert_backslash)
      | d :: cs => decidable_of_iff _ (hc ▸ (inert_backslash_cons d cs).symm)
    else decidable_of_iff _ (inert_cons_of_ne hc cs).symm

/-! ## The scanner -/

/-- Without a backslash the scanner reads one character, or stops at a comment. -/
private theorem unescape_cons_of_ne {c : Char} (h : c ≠ '\\') (cs : List Char) :
    unescape (c :: cs) = if isComment c then [] else c :: unescape cs := by
  rw [unescape.eq_def]
  split <;> simp_all

private theorem isComment_backslash : isComment '\\' = false := rfl

/-- What the scanner makes of a bare text: nothing longer than the text, and the text itself only if
    that is inert. -/
structure Scanned (cs : List Char) : Prop where
  length_le : (unescape (bare cs)).length ≤ cs.length
  eq_iff : unescape (bare cs) = cs ↔ Inert cs

/-- A character that is no backslash is scanned by itself. -/
private theorem Scanned.cons_of_ne {c : Char} {cs : List Char} (h : Scanned cs) (hc : c ≠ '\\') :
    Scanned (c :: cs) := by
  -- Whether it is written with a backslash or without, it is read as itself.
  have hread : unescape (bare (c :: cs)) = c :: unescape (bare cs) := by
    rw [bare_cons]
    by_cases hcomment : isComment c
    · rw [if_pos hcomment, unescape, if_pos (.inr hcomment)]
    · rw [if_neg hcomment, unescape_cons_of_ne hc, if_neg hcomment]
  constructor
  · have hle := h.length_le
    rw [hread, List.length_cons, List.length_cons]
    omega
  · rw [hread, inert_cons_of_ne hc, ← h.eq_iff, List.cons.injEq]
    simp

/-- A backslash that takes the meaning from the next character is not read again. -/
private theorem Scanned.length_lt {cs : List Char} (h : Scanned cs) {c : Char}
    (hc : c = '\\' ∨ isComment c) :
    (unescape (bare ('\\' :: c :: cs))).length < cs.length + 2 := by
  have hle := h.length_le
  rw [bare_cons, if_neg (by simp [isComment_backslash]), bare_cons]
  by_cases hcomment : isComment c
  · -- It takes the meaning from the backslash that was written for `c`, and a comment starts there.
    have hne : c ≠ '\\' := by
      rintro rfl
      cases hcomment
    rw [if_pos hcomment, unescape, if_pos (.inl rfl), unescape_cons_of_ne hne, if_pos hcomment]
    simp
  · -- Of two backslashes one is read, and the scanner goes on behind them.
    have hback : c = '\\' := by simpa [hcomment] using hc
    rw [if_neg hcomment, unescape, if_pos (.inl hback), List.length_cons]
    omega

/-- A backslash is scanned together with the character after it. -/
private theorem Scanned.backslash_cons {cs : List Char} (h : Scanned cs) (c : Char) :
    Scanned ('\\' :: c :: cs) := by
  by_cases hc : c = '\\' ∨ isComment c
  · have hlt := h.length_lt hc
    -- The backslash takes a meaning away, so the text is not inert and the scanner loses a
    -- character.
    have hnot : ¬Inert ('\\' :: c :: cs) := by
      rw [inert_backslash_cons]
      rintro ⟨⟨hne, hcomment⟩, -⟩
      simp [hne, hcomment] at hc
    constructor
    · simp only [List.length_cons]
      omega
    · -- What is shorter than the text is not the text.
      refine iff_of_false ?_ hnot
      intro heq
      rw [heq] at hlt
      simp at hlt
  · -- The backslash has nothing to take the meaning from, so both characters are read.
    rw [not_or, Bool.not_eq_true] at hc
    have hread : unescape (bare ('\\' :: c :: cs)) = '\\' :: c :: unescape (bare cs) := by
      rw [bare_cons, if_neg (by simp [isComment_backslash]), bare_cons, if_neg (by simp [hc.2]),
        unescape, if_neg (by simp [hc])]
    have hle := h.length_le
    constructor
    · rw [hread]
      simp only [List.length_cons]
      omega
    · rw [hread, inert_backslash_cons, inert_cons_of_ne hc.1, ← h.eq_iff]
      simp [hc]

/-- Every bare text is scanned like this. -/
theorem scanned (cs : List Char) : Scanned cs := by
  -- The scanner takes two characters at a backslash, so both ways to come to `cs` are carried.
  have both : Scanned cs ∧ Scanned ('\\' :: cs) := by
    induction cs with
    | nil =>
      have hnil : Scanned [] := ⟨Nat.le_refl _, by simp [bare, unescape, inert_nil]⟩
      have hread : unescape (bare ['\\']) = ['\\'] := rfl
      exact ⟨hnil, by simp [hread], by simp [hread, inert_backslash]⟩
    | cons c cs ih =>
      refine ⟨?_, ih.1.backslash_cons c⟩
      by_cases hc : c = '\\'
      · exact hc ▸ ih.2
      · exact ih.1.cons_of_ne hc
  exact both.1

/-! ## Reading a bare field -/

/-- A text that needs no quotes has no blanks at its ends. -/
private theorem trim_of_not_needsQuotes {cs : List Char} (h : needsQuotes cs = false) :
    Text.trim cs = cs := by
  simp only [needsQuotes, Bool.or_eq_false_iff] at h
  have htrim : cs = Text.trim cs := by simpa using h.2
  exact htrim.symm

/-- A text that needs no quotes and yet counts as quoted is at most one quote. -/
private theorem length_le_of_isQuoted {cs : List Char} (h : needsQuotes cs = false)
    (hq : isQuoted cs) :
    cs.length ≤ 1 := by
  simp only [needsQuotes, Bool.or_eq_false_iff, hq, Bool.and_true, decide_eq_false_iff_not] at h
  omega

/-- Escapes are put before characters, so the last one is the same. -/
private theorem getLast?_bare (cs : List Char) : (bare cs).getLast? = cs.getLast? := by
  -- The last character is written last, with its escape before it.
  rcases List.eq_nil_or_concat cs with rfl | ⟨before, c, rfl⟩
  · rfl
  · rw [bare, List.concat_eq_append, List.flatMap_append, List.getLast?_append,
      List.getLast?_append]
    by_cases h : isComment c <;> simp [h]

/-- The first character of a bare text is the same, or the backslash before it. -/
private theorem head?_bare (cs : List Char) :
    (bare cs).head? = cs.head?.map fun c => if isComment c then '\\' else c := by
  cases cs with
  | nil => rfl
  | cons c cs =>
    rw [bare_cons]
    by_cases h : isComment c <;> simp [h]

/-- Without blanks at its ends a text has none there when it is written bare. -/
private theorem trim_bare {cs : List Char} (h : Text.trim cs = cs) :
    Text.trim (bare cs) = bare cs := by
  have hends : Text.BareEnds isBlank cs := Text.stripEnds_eq_self_iff.mp h
  refine Text.stripEnds_of_bare ⟨?_, ?_⟩
  · intro c hc
    rw [head?_bare] at hc
    obtain ⟨d, hd, rfl⟩ := Option.map_eq_some_iff.mp hc
    -- The text starts with its own first character or with a backslash, and neither is blank.
    by_cases hcomment : isComment d
    · rw [if_pos hcomment]
      rfl
    · rw [if_neg hcomment]
      exact hends.1 d hd
  · intro c hc
    rw [getLast?_bare] at hc
    exact hends.2 c hc

/-- Writing a text bare neither puts quotes around it nor takes them away. -/
private theorem isQuoted_bare (cs : List Char) : isQuoted (bare cs) = isQuoted cs := by
  rw [isQuoted, isQuoted, getLast?_bare, head?_bare]
  cases hhead : cs.head? with
  | none => rfl
  | some first =>
    cases hlast : cs.getLast? with
    | none => rfl
    | some last =>
      by_cases hcomment : isComment first
      · -- A semicolon or a hash is no quote, and neither is the backslash before it.
        have hfirst : isQuote first = false := by
          simp only [isComment, Bool.or_eq_true, beq_iff_eq] at hcomment
          rcases hcomment with rfl | rfl <;> rfl
        have hback : isQuote '\\' = false := rfl
        simp [hcomment, hfirst, hback]
      · simp [hcomment]

/-- One quote alone is written bare, but it counts as quoted. -/
private theorem eq_quote_of_isQuoted {cs : List Char} (h : isQuoted cs) (hlength : cs.length ≤ 1) :
    cs = ['"'] ∨ cs = ['\''] := by
  match cs, hlength with
  | [], _ => cases h
  | [c], _ => simpa [isQuoted, isQuote] using h

/-- A bare field is read by the scanner, unless it is a single quote. -/
private theorem decode_bare {cs : List Char} (h : needsQuotes cs = false) (hq : cs ≠ ['\'']) :
    decode (bare cs) = .string (.ofChars (Text.trim (unescape (bare cs)))) := by
  have htrim := trim_bare (trim_of_not_needsQuotes h)
  by_cases hcs : isQuoted cs
  · have hlength := length_le_of_isQuoted h hcs
    obtain rfl : cs = ['"'] := (eq_quote_of_isQuoted hcs hlength).resolve_right hq
    -- One double quote is no JSON, so it is kept, as the scanner would keep it.
    rfl
  · rw [decode, htrim, isQuoted_bare]
    simp [hcs]

/-- A single quote is read as the empty text. -/
private theorem decode_apostrophe : decode (bare ['\'']) = .string [] := rfl

/-- Nothing is lost at the ends of what the scanner gives back, for the text is trimmed. -/
private theorem trim_unescape_bare_iff {cs : List Char} (h : Text.trim cs = cs) :
    Text.trim (unescape (bare cs)) = cs ↔ Inert cs := by
  have hscanned := scanned cs
  constructor
  · intro heq
    -- The scanner gives no more characters than the text has, so trimming takes none away.
    have hle : (unescape (bare cs)).length ≤ (Text.trim (unescape (bare cs))).length := by
      rw [heq]
      exact hscanned.length_le
    have hself := Text.stripEnds_of_bare (Text.bare_of_length_stripEnds hle)
    rw [Text.trim, hself] at heq
    exact hscanned.eq_iff.mp heq
  · intro hinert
    rw [hscanned.eq_iff.mpr hinert, h]

/-! ## The characters of a written field -/

/-- No characters are written but those of the text and backslashes. -/
private theorem mem_bare {c : Char} {cs : List Char} (h : c ∈ bare cs) : c = '\\' ∨ c ∈ cs := by
  obtain ⟨d, hd, hc⟩ := List.mem_flatMap.mp h
  split at hc
  · simp only [List.mem_cons, List.not_mem_nil, or_false] at hc
    rcases hc with rfl | rfl
    · exact .inl rfl
    · exact .inr hd
  · rw [List.mem_singleton] at hc
    exact .inr (hc ▸ hd)

private theorem mem_bare_of_mem {c : Char} {cs : List Char} (h : c ∈ cs) : c ∈ bare cs := by
  refine List.mem_flatMap.mpr ⟨c, h, ?_⟩
  by_cases hcomment : isComment c <;> simp [hcomment]

/-- A written field stands on one line. -/
theorem not_newline_of_mem_encode {w : Wide} (h : Json.Paired w) {c : Char}
    (hc : c ∈ encode w) : c ≠ '\r' ∧ c ≠ '\n' := by
  by_cases hq : needsQuotes w.chars
  · rw [encode_of_needsQuotes hq] at hc
    have hge := (Json.mem_quote h hc).1
    -- JSON writes control characters by escapes.
    refine ⟨?_, ?_⟩ <;> rintro rfl <;> exact absurd hge (by decide)
  · rw [Bool.not_eq_true] at hq
    rw [encode_of_not_needsQuotes hq] at hc
    rcases mem_bare hc with rfl | hc
    · exact ⟨by decide, by decide⟩
    · simp only [needsQuotes, Bool.or_eq_false_iff, List.any_eq_false] at hq
      -- A text with a line end would need quotes.
      have hchar := hq.1.1.1 c hc
      simp only [Bool.or_eq_true, beq_iff_eq, not_or] at hchar
      exact ⟨hchar.1.2, hchar.2⟩

private theorem any_isSeparator_eq_false_iff {cs : List Char} :
    cs.any isSeparator = false ↔ ∀ c ∈ cs, isSeparator c = false := by
  simp

/-- A separator is beyond the characters that JSON writes by escapes. -/
private theorem toNat_of_isSeparator {c : Char} (h : isSeparator c) : 0x7F ≤ c.toNat := by
  simp only [isSeparator, Bool.or_eq_true, beq_iff_eq] at h
  rcases h with rfl | rfl <;> decide

/-- No escape takes a separator away or brings one in. -/
private theorem mem_encode_iff_of_isSeparator {w : Wide} (h : Json.Paired w) {c : Char}
    (hc : isSeparator c) : c ∈ encode w ↔ c ∈ w.chars := by
  have hge := toNat_of_isSeparator hc
  by_cases hq : needsQuotes w.chars
  · rw [encode_of_needsQuotes hq]
    constructor
    · intro hmem
      -- Escapes are made of characters below the separators.
      have hletter := (Json.mem_quote h hmem).2.resolve_left (by omega)
      exact List.mem_map.mpr ⟨.char c, hletter, rfl⟩
    · intro hmem
      obtain ⟨letter, hletter, rfl⟩ := List.mem_map.mp hmem
      cases letter with
      | char d => exact Json.mem_quote_of_mem hletter hge
      | surrogate code =>
        -- The replacement character is no separator.
        cases hc
  · rw [Bool.not_eq_true] at hq
    rw [encode_of_not_needsQuotes hq]
    refine ⟨fun hmem => ?_, mem_bare_of_mem⟩
    -- The only character that writing bare brings in is the backslash.
    rcases mem_bare hmem with rfl | hmem
    · cases hc
    · exact hmem

/-- A field is written with a separator exactly if its text has one. -/
theorem any_isSeparator_encode {w : Wide} (h : Json.Paired w) :
    (encode w).any isSeparator = w.chars.any isSeparator := by
  rw [Bool.eq_iff_iff, List.any_eq_true, List.any_eq_true]
  constructor
  · rintro ⟨c, hmem, hc⟩
    exact ⟨c, (mem_encode_iff_of_isSeparator h hc).mp hmem, hc⟩
  · rintro ⟨c, hmem, hc⟩
    exact ⟨c, (mem_encode_iff_of_isSeparator h hc).mpr hmem, hc⟩

/-! ## Settings that are read back -/

/-- The setting that is read where a text was written, if one is. -/
def reread (w : Wide) : Option Wide :=
  if (encode w).any isSeparator then none
  else (Slot.ofJson (valueOf (decode (encode w)))).setting?

/-- What the characters of a text must be like for it to be read as it was written. -/
structure Legible (w : Wide) : Prop where
  no_separator : ∀ c ∈ w.chars, isSeparator c = false
  not_apostrophe : w ≠ .ofString "'"
  quoted_or_inert : needsQuotes w.chars ∨ Inert w.chars

/-- The text is read as it was written.  Without quotes it must have no half of a surrogate pair,
    for which a file has no place. -/
structure Faithful (w : Wide) : Prop extends Legible w where
  quoted_or_whole : needsQuotes w.chars ∨ w.string?.isSome

/-- What it is to be legible, in a form that can be computed. -/
private theorem legible_iff {w : Wide} :
    Legible w ↔ w.chars.any isSeparator = false ∧ w ≠ .ofString "'" ∧
      (needsQuotes w.chars ∨ Inert w.chars) := by
  rw [any_isSeparator_eq_false_iff]
  exact ⟨fun h => ⟨h.no_separator, h.not_apostrophe, h.quoted_or_inert⟩,
    fun h => ⟨h.1, h.2.1, h.2.2⟩⟩

instance (w : Wide) : Decidable (Legible w) :=
  decidable_of_iff _ legible_iff.symm

/-- What it is to be faithful, in a form that can be computed. -/
private theorem faithful_iff {w : Wide} :
    Faithful w ↔ Legible w ∧ (needsQuotes w.chars ∨ w.string?.isSome) :=
  ⟨fun h => ⟨h.toLegible, h.quoted_or_whole⟩, fun h => ⟨h.1, h.2⟩⟩

instance (w : Wide) : Decidable (Faithful w) :=
  decidable_of_iff _ faithful_iff.symm

/-- Every text is a setting but the word for no value. -/
theorem setting?_ofJson_valueOf (w : Wide) :
    (Slot.ofJson (valueOf (.string w))).setting? =
      if w = .ofString "null" then none else some w := by
  cases hw : w.string? with
  | none =>
    -- A text with half a pair is none of the three words.
    have hnull : w ≠ .ofString "null" := by
      rintro rfl
      rw [Wide.string?_eq_some_iff.mpr rfl] at hw
      cases hw
    simp [valueOf, hw, Slot.ofJson, Slot.setting?, hnull]
  | some s =>
    obtain rfl := Wide.string?_eq_some_iff.mp hw
    have hinj : Wide.ofString s = .ofString "null" ↔ s = "null" :=
      ⟨Wide.ofString_injective, fun h => h ▸ rfl⟩
    simp only [valueOf, hw, hinj]
    split
    · next heq => cases heq; simp [Slot.ofJson, Slot.setting?]
    · next heq => cases heq; simp [Slot.ofJson, Slot.setting?]
    · next heq => cases heq; simp [Slot.ofJson, Slot.setting?]
    · next hnull =>
      have hs : s ≠ "null" := fun h => hnull (h ▸ rfl)
      simp [Slot.ofJson, Slot.setting?, hs]

/-- A written field is read as some text, and halves of surrogate pairs are not made up. -/
theorem exists_decode_encode {w : Wide} (h : Json.Paired w) :
    ∃ text, decode (encode w) = .string text ∧ (w.string?.isSome → text.string?.isSome) := by
  have hwhole : ∀ cs : List Char, (Wide.ofChars cs).string?.isSome := by
    intro cs
    rw [Wide.isSome_string?_iff, Wide.ofString_text, Wide.chars_ofChars]
  by_cases hq : needsQuotes w.chars
  · exact ⟨w, by rw [encode_of_needsQuotes hq, decode_quote h], id⟩
  · rw [Bool.not_eq_true] at hq
    rw [encode_of_not_needsQuotes hq]
    by_cases hapostrophe : w.chars = ['\'']
    · exact ⟨[], by rw [hapostrophe, decode_apostrophe], fun _ => hwhole []⟩
    · exact ⟨_, decode_bare hq hapostrophe, fun _ => hwhole _⟩

/-- A written field is read as the text itself if it stands between quotes, or else if nothing is
    lost without them. -/
theorem decode_encode_iff {w : Wide} (h : Json.Paired w) :
    decode (encode w) = .string w ↔
      needsQuotes w.chars ∨ w ≠ .ofString "'" ∧ Inert w.chars ∧ w.string?.isSome := by
  by_cases hq : needsQuotes w.chars
  · rw [encode_of_needsQuotes hq]
    simp [decode_quote h, hq]
  rw [Bool.not_eq_true] at hq
  simp only [hq, Bool.false_eq_true, false_or, encode_of_not_needsQuotes hq,
    Wide.isSome_string?_iff, Wide.ofString_text]
  by_cases hapostrophe : w.chars = ['\'']
  · -- A single quote is taken for both quotes around nothing.
    rw [hapostrophe, decode_apostrophe]
    refine iff_of_false ?_ ?_
    · intro heq
      cases heq
      cases hapostrophe
    · rintro ⟨hne, -, hwhole⟩
      exact hne hwhole.symm
  · rw [decode_bare hq hapostrophe, Json.string.injEq,
      ← trim_unescape_bare_iff (trim_of_not_needsQuotes hq)]
    constructor
    · intro heq
      have hchars := congrArg Wide.chars heq
      rw [Wide.chars_ofChars] at hchars
      refine ⟨?_, hchars, hchars ▸ heq⟩
      rintro rfl
      exact hapostrophe rfl
    · rintro ⟨-, hchars, hwhole⟩
      rw [hchars, hwhole]

/-- What is read of a text without halves of surrogate pairs has none either. -/
theorem string?_isSome_of_reread {w text : Wide} (h : Json.Paired w) (hw : w.string?.isSome)
    (hread : reread w = some text) : text.string?.isSome := by
  -- What is read is the text that the field is decoded to, if it is anything.
  obtain ⟨text', htext, hwhole⟩ := exists_decode_encode h
  rw [reread, htext, setting?_ofJson_valueOf] at hread
  split at hread
  · cases hread
  split at hread
  · cases hread
  · cases hread
    exact hwhole hw

/-- A setting is read as it was written exactly if its text is faithful.  The word for no value is
    left out: what is read as null is no setting. -/
theorem reread_eq_some_iff {w : Wide} (h : Json.Paired w) (hnull : w ≠ .ofString "null") :
    reread w = some w ↔ Faithful w := by
  obtain ⟨text, htext, -⟩ := exists_decode_encode h
  -- The words for values do not come in the way, for the text is not the one that means no value.
  have hread : (Slot.ofJson (valueOf (decode (encode w)))).setting? = some w ↔
      decode (encode w) = .string w := by
    rw [htext, setting?_ofJson_valueOf, Json.string.injEq]
    split
    · next heq => simp [heq, Ne.symm hnull]
    · simp
  have hsep : (encode w).any isSeparator = false ↔ ∀ c ∈ w.chars, isSeparator c = false := by
    rw [any_isSeparator_encode h, any_isSeparator_eq_false_iff]
  rw [reread]
  by_cases hany : (encode w).any isSeparator
  · -- The line is no entry.
    rw [if_pos hany]
    refine iff_of_false (by simp) ?_
    intro hfaithful
    rw [hsep.mpr hfaithful.no_separator] at hany
    cases hany
  · rw [if_neg hany, hread, decode_encode_iff h]
    rw [Bool.not_eq_true] at hany
    constructor
    · rintro (hq | ⟨hne, hinert, hwhole⟩)
      · -- A single quote is not written between quotes.
        refine ⟨⟨hsep.mp hany, ?_, .inl hq⟩, .inl hq⟩
        rintro rfl
        cases hq
      · exact ⟨⟨hsep.mp hany, hne, .inr hinert⟩, .inr hwhole⟩
    · rintro ⟨⟨-, hne, hinert⟩, hwhole⟩
      by_cases hq : needsQuotes w.chars
      · exact .inl hq
      · exact .inr ⟨hne, hinert.resolve_left hq, hwhole.resolve_left hq⟩

/-! ## Paths and truth values -/

/-- A text that starts with a slash still does so when it is read back, if it is. -/
theorem head?_reread {w text : Wide} (h : Json.Paired w) (hslash : w.chars.head? = some '/')
    (hread : reread w = some text) : text.chars.head? = some '/' := by
  -- Between quotes the text is read back; without them the scanner keeps its first character.
  have hdecode : ∃ read : Wide, decode (encode w) = .string read ∧ read.chars.head? = some '/' := by
    by_cases hq : needsQuotes w.chars
    · exact ⟨w, by rw [encode_of_needsQuotes hq, decode_quote h], hslash⟩
    · rw [Bool.not_eq_true] at hq
      obtain ⟨cs, hcs⟩ : ∃ cs, w.chars = '/' :: cs := by
        cases hchars : w.chars with
        | nil => rw [hchars] at hslash; cases hslash
        | cons c cs =>
          rw [hchars] at hslash
          cases hslash
          exact ⟨cs, rfl⟩
      have hapostrophe : w.chars ≠ ['\''] := by simp [hcs]
      refine ⟨_, by rw [encode_of_not_needsQuotes hq, decode_bare hq hapostrophe], ?_⟩
      -- The slash is neither blank nor a backslash and starts no comment, so it stays in front.
      have hcomment : isComment '/' = false := rfl
      rw [Wide.chars_ofChars, hcs, bare_cons, hcomment, if_neg (by simp),
        unescape_cons_of_ne (by decide), hcomment, if_neg (by simp)]
      exact Text.head?_stripEnds (by decide) _
  obtain ⟨read, heq, hhead⟩ := hdecode
  rw [reread, heq, setting?_ofJson_valueOf] at hread
  split at hread
  · cases hread
  · split at hread
    · cases hread
    · cases hread
      exact hhead

/-- The texts of the truth values, and the empty one, are read back as they are. -/
theorem reread_of_truth {w : Wide} (h : w.text = "" ∨ w.text = "true" ∨ w.text = "false") :
    reread w = some (.ofString w.text) := by
  have hchars : w.chars = w.text.toList := by simp [Wide.text]
  -- None of the three texts needs quotes.
  have hplain : needsQuotes w.chars = false := by
    rw [hchars]
    rcases h with h | h | h <;> rw [h] <;> decide
  rw [reread, encode_of_not_needsQuotes hplain, hchars]
  rcases h with h | h | h <;> rw [h] <;> decide

end KconfigQuery.Settings.Field
