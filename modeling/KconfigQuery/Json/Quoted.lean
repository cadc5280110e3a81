import KconfigQuery.Text.Digit
import KconfigQuery.Text.Wide

/-! # Quoted strings

A JSON string stands between double quotes.  Inside, a backslash starts an escape; quotes,
backslashes, control characters and unpaired surrogates can only be written by one.

* `body_escapeAll`   reading a written string gives its letters back, and what follows it
* `paired_of_body`   what is read from a string can be written as one
* `mem_quote`        a written string holds no control characters -/

namespace KconfigQuery.Json

open Text (Letter Wide digitChar digitValue?)

/-! ## Writing -/

/-- A code unit as four hexadecimal digits. -/
def hexDigits (n : Nat) : List Char :=
  [digitChar (n / 4096), digitChar (n / 256 % 16), digitChar (n / 16 % 16), digitChar (n % 16)]

/-- A character as it stands in a written string. -/
def escape (c : Char) : List Char :=
  if c = '"' then ['\\', '"']
  else if c = '\\' then ['\\', '\\']
  else if c = '\x08' then ['\\', 'b']
  else if c = '\t' then ['\\', 't']
  else if c = '\n' then ['\\', 'n']
  else if c = '\x0c' then ['\\', 'f']
  else if c = '\r' then ['\\', 'r']
  else if c.toNat < 0x20 then '\\' :: 'u' :: hexDigits c.toNat
  else [c]

/-- A letter as it stands in a written string. -/
def escapeLetter : Letter → List Char
  | .char c => escape c
  | .surrogate code => '\\' :: 'u' :: hexDigits code

/-- A written string. -/
def quote (w : Wide) : List Char :=
  '"' :: w.flatMap escapeLetter ++ ['"']

/-! ## Reading -/

/-- The number that four hexadecimal digits write. -/
def codeUnit? (a b c d : Char) : Option Nat := do
  let a ← digitValue? a
  let b ← digitValue? b
  let c ← digitValue? c
  let d ← digitValue? d
  return ((a * 16 + b) * 16 + c) * 16 + d

/-- The character of an escape of one letter. -/
def unescape? (c : Char) : Option Char :=
  match c with
  | '"' => some '"'
  | '\\' => some '\\'
  | '/' => some '/'
  | 'b' => some '\x08'
  | 'f' => some '\x0c'
  | 'n' => some '\n'
  | 'r' => some '\r'
  | 't' => some '\t'
  | _ => none

/-- The first half of a pair of code units for one character. -/
def isHigh (n : Nat) : Bool := 0xD800 ≤ n && n < 0xDC00

/-- The second half of such a pair. -/
def isLow (n : Nat) : Bool := 0xDC00 ≤ n && n < 0xE000

/-- Half a pair without the other half. -/
def unpaired (high? : Option Nat) : Wide :=
  match high? with
  | some high => [.surrogate high]
  | none => []

/-- The letters that a code unit completes, given the half pair before it, and the half pair that
    it leaves. -/
def pair (high? : Option Nat) (n : Nat) : Wide × Option Nat :=
  if isHigh n then (unpaired high?, some n)
  else if isLow n then
    match high? with
    | some high => ([.char (Char.ofNat (0x10000 + (high - 0xD800) * 0x400 + (n - 0xDC00)))], none)
    | none => ([.surrogate n], none)
  else (unpaired high? ++ [.char (Char.ofNat n)], none)

/-- Read the rest of a string after its opening quote: its letters and what follows the closing
    quote.  The first argument is half a pair just read. -/
def body (high? : Option Nat) : List Char → Option (Wide × List Char)
  | '"' :: cs => some (unpaired high?, cs)
  | '\\' :: 'u' :: a :: b :: c :: d :: cs =>
    match codeUnit? a b c d with
    | some n =>
      let (letters, high?) := pair high? n
      (body high? cs).map fun (text, rest) => (letters ++ text, rest)
    | none => none
  | '\\' :: c :: cs =>
    match unescape? c with
    | some char =>
      (body none cs).map fun (text, rest) => (unpaired high? ++ .char char :: text, rest)
    | none => none
  | c :: cs =>
    if c.toNat < 0x20 ∨ c = '\\' then none
    else (body none cs).map fun (text, rest) => (unpaired high? ++ .char c :: text, rest)
  | [] => none

/-! ## Laws -/

/-- The text starts with the second half of a pair. -/
def startsLow : Wide → Bool
  | .surrogate code :: _ => isLow code
  | _ => false

/-- Every half of a pair stands alone: no first half comes right before a second one, for the two
    would be one character. -/
def Paired : Wide → Prop
  | [] => True
  | .char _ :: rest => Paired rest
  | .surrogate code :: rest =>
    (isHigh code ∨ isLow code) ∧ (isHigh code → startsLow rest = false) ∧ Paired rest

/-- A text of whole characters has no halves to join. -/
theorem paired_ofChars (cs : List Char) : Paired (.ofChars cs) := by
  induction cs with
  | nil => trivial
  | cons c cs ih => exact ih

/-- No code unit is both halves of a pair. -/
private theorem isLow_of_isHigh {n : Nat} (h : isHigh n) : isLow n = false := by
  simp only [isHigh, isLow, Bool.and_eq_true, decide_eq_true_eq] at h ⊢
  have hlt : ¬ 0xDC00 ≤ n := by omega
  simp [hlt]

/-! ### Reading what was written -/

/-- Four written digits are read as the code unit. -/
theorem codeUnit?_hexDigits {n : Nat} (h : n < 65536) :
    codeUnit? (digitChar (n / 4096)) (digitChar (n / 256 % 16)) (digitChar (n / 16 % 16))
      (digitChar (n % 16)) = some n := by
  have ha := Text.digitValue?_digitChar (n := n / 4096) (by omega)
  have hb := Text.digitValue?_digitChar (n := n / 256 % 16) (by omega)
  have hc := Text.digitValue?_digitChar (n := n / 16 % 16) (by omega)
  have hd := Text.digitValue?_digitChar (n := n % 16) (by omega)
  have hn : ((n / 4096 * 16 + n / 256 % 16) * 16 + n / 16 % 16) * 16 + n % 16 = n := by omega
  simp [codeUnit?, ha, hb, hc, hd, hn]

/-- A written character is read back, after a first half that was left alone. -/
private theorem body_escape (high? : Option Nat) (c : Char) (cs : List Char) :
    body high? (escape c ++ cs) =
      (body none cs).map fun (text, rest) => (unpaired high? ++ .char c :: text, rest) := by
  unfold escape
  split
  · next h => simp [body, unescape?, h]
  split
  · next h => simp [body, unescape?, h]
  split
  · next h => simp [body, unescape?, h]
  split
  · next h => simp [body, unescape?, h]
  split
  · next h => simp [body, unescape?, h]
  split
  · next h => simp [body, unescape?, h]
  split
  · next h => simp [body, unescape?, h]
  split
  · next hlt =>
    have hunit := codeUnit?_hexDigits (n := c.toNat) (by omega)
    -- A control character is no half of a pair.
    have hhigh : isHigh c.toNat = false := by
      have hle : ¬ 0xD800 ≤ c.toNat := by omega
      simp [isHigh, hle]
    have hlow : isLow c.toNat = false := by
      have hle : ¬ 0xDC00 ≤ c.toNat := by omega
      simp [isLow, hle]
    simp [body, hexDigits, hunit, pair, hhigh, hlow]
  · next hq hb _ _ _ _ _ hge =>
    rw [List.singleton_append, body.eq_def]
    split
    · simp_all
    · simp_all
    · simp_all
    · next heq =>
      simp only [List.cons.injEq] at heq
      obtain ⟨rfl, rfl⟩ := heq
      simp [hge, hb]
    · simp_all

/-- A written half is read as a code unit that may join the one before it. -/
private theorem body_surrogate {code : Nat} (h : isHigh code ∨ isLow code) (high? : Option Nat)
    (cs : List Char) :
    body high? (escapeLetter (.surrogate code) ++ cs) =
      (body (pair high? code).2 cs).map fun (text, rest) =>
        ((pair high? code).1 ++ text, rest) := by
  have hlt : code < 65536 := by
    rcases h with h | h <;> simp only [isHigh, isLow, Bool.and_eq_true, decide_eq_true_eq] at h <;>
      omega
  have hunit := codeUnit?_hexDigits hlt
  simp [escapeLetter, hexDigits, body, hunit]

/-- A written text is read back up to its closing quote.  If half a pair was read before, the text
    must not go on with the other half. -/
theorem body_escapeAll {w : Wide} (h : Paired w) (high? : Option Nat)
    (hh : high?.isSome → startsLow w = false) (rest : List Char) :
    body high? (w.flatMap escapeLetter ++ '"' :: rest) = some (unpaired high? ++ w, rest) := by
  induction w generalizing high? with
  | nil => simp [body]
  | cons letter w ih =>
    rw [List.flatMap_cons, List.append_assoc]
    cases letter with
    | char c =>
      rw [escapeLetter, body_escape, ih h none (by simp)]
      simp [unpaired]
    | surrogate code =>
      obtain ⟨hcode, hnext, hw⟩ := h
      rw [body_surrogate hcode]
      by_cases hhigh : isHigh code
      · rw [show pair high? code = (unpaired high?, some code) by simp [pair, hhigh]]
        rw [ih hw (some code) fun _ => hnext hhigh]
        simp [unpaired]
      · have hlow : isLow code := hcode.resolve_left hhigh
        -- A second half can only come first, so no first half was read.
        cases high? with
        | some high => simp [startsLow, hlow] at hh
        | none =>
          rw [show pair none code = ([.surrogate code], none) by simp [pair, hhigh, hlow]]
          rw [ih hw none (by simp)]
          simp [unpaired]

/-! ### What reading gives -/

/-- A first half that is left alone may stand before a text that does not start with a second one.
    -/
private theorem paired_unpaired_append {high? : Option Nat} {w : Wide}
    (hh : ∀ high ∈ high?, isHigh high) (h : Paired w) (hw : high?.isSome → startsLow w = false) :
    Paired (unpaired high? ++ w) ∧ (high?.isSome → startsLow (unpaired high? ++ w) = false) := by
  cases high? with
  | none => exact ⟨h, hw⟩
  | some high =>
    have hhigh : isHigh high := hh high rfl
    exact ⟨⟨.inl hhigh, fun _ => hw rfl, h⟩, fun _ => isLow_of_isHigh hhigh⟩

/-- A code unit keeps every half alone: a first half waits for the next unit, and a second half
    either joins the one before it or has none before it. -/
private theorem paired_pair {high? next? : Option Nat} {n : Nat} {letters : Wide}
    (h : pair high? n = (letters, next?)) (hh : ∀ high ∈ high?, isHigh high) :
    (∀ high ∈ next?, isHigh high) ∧
      ∀ w, Paired w → (next?.isSome → startsLow w = false) →
        Paired (letters ++ w) ∧ (high?.isSome → startsLow (letters ++ w) = false) := by
  unfold pair at h
  split at h
  · next hhigh =>
    cases h
    refine ⟨?_, fun w hw hnext => paired_unpaired_append hh hw fun _ => hnext rfl⟩
    intro high hmem
    cases hmem
    exact hhigh
  split at h
  · next hhigh hlow =>
    split at h
    · cases h
      exact ⟨fun _ hmem => (by cases hmem), fun w hw _ => ⟨hw, fun _ => rfl⟩⟩
    · cases h
      refine ⟨fun _ hmem => (by cases hmem), fun w hw _ => ⟨⟨.inr hlow, ?_, hw⟩, ?_⟩⟩
      · exact fun hn => absurd hn hhigh
      · exact fun hsome => (by cases hsome)
  · cases h
    refine ⟨fun _ hmem => (by cases hmem), fun w hw _ => ?_⟩
    rw [List.append_assoc]
    exact paired_unpaired_append hh hw fun _ => rfl

/-- Reading joins halves that belong together, so that none are left that could be joined. -/
theorem paired_of_body {high? : Option Nat} {cs : List Char} {w : Wide} {rest : List Char}
    (h : body high? cs = some (w, rest)) (hh : ∀ high ∈ high?, isHigh high) :
    Paired w ∧ (high?.isSome → startsLow w = false) := by
  -- Along the reading: each unit or character goes in front of what is read after it.
  fun_induction body high? cs generalizing w rest with
  | case1 high? cs =>
    cases h
    have hnil := paired_unpaired_append (w := []) hh trivial fun _ => rfl
    rwa [List.append_nil] at hnil
  | case2 high? a b c d cs n hunit letters next? hpair ih =>
    obtain ⟨⟨text, after⟩, hbody, heq⟩ := Option.map_eq_some_iff.mp h
    cases heq
    obtain ⟨hnext, happend⟩ := paired_pair hpair hh
    obtain ⟨htext, hstart⟩ := ih hbody hnext
    exact happend text htext hstart
  | case4 high? c cs _ char hchar ih =>
    obtain ⟨⟨text, after⟩, hbody, heq⟩ := Option.map_eq_some_iff.mp h
    cases heq
    have htext := (ih hbody fun _ hmem => (by cases hmem)).1
    exact paired_unpaired_append hh htext fun _ => rfl
  | case7 high? c cs _ _ _ _ ih =>
    obtain ⟨⟨text, after⟩, hbody, heq⟩ := Option.map_eq_some_iff.mp h
    cases heq
    have htext := (ih hbody fun _ hmem => (by cases hmem)).1
    exact paired_unpaired_append hh htext fun _ => rfl
  | _ => cases h

/-! ### What a written string consists of -/

/-- Written digits are printable ASCII characters. -/
private theorem mem_hexDigits {n : Nat} (h : n < 65536) {c : Char} (hc : c ∈ hexDigits n) :
    0x20 ≤ c.toNat ∧ c.toNat < 0x7F := by
  have key : ∀ n < 16, 0x20 ≤ (digitChar n).toNat ∧ (digitChar n).toNat < 0x7F := by decide
  simp only [hexDigits, List.mem_cons, List.not_mem_nil, or_false] at hc
  rcases hc with rfl | rfl | rfl | rfl
  · exact key _ (by omega)
  · exact key _ (by omega)
  · exact key _ (by omega)
  · exact key _ (by omega)

/-- A written character consists of printable ASCII characters, or it stands for itself. -/
private theorem mem_escape {c d : Char} (h : d ∈ escape c) :
    0x20 ≤ d.toNat ∧ (d.toNat < 0x7F ∨ d = c) := by
  -- Short escapes have one character after the backslash.
  have short : ∀ e : Char, (0x20 ≤ e.toNat ∧ e.toNat < 0x7F) → d ∈ ['\\', e] →
      0x20 ≤ d.toNat ∧ (d.toNat < 0x7F ∨ d = c) := by
    intro e he hd
    simp only [List.mem_cons, List.not_mem_nil, or_false] at hd
    rcases hd with rfl | rfl
    · exact ⟨by decide, .inl (by decide)⟩
    · exact ⟨he.1, .inl he.2⟩
  unfold escape at h
  split at h
  · exact short _ (by decide) h
  split at h
  · exact short _ (by decide) h
  split at h
  · exact short _ (by decide) h
  split at h
  · exact short _ (by decide) h
  split at h
  · exact short _ (by decide) h
  split at h
  · exact short _ (by decide) h
  split at h
  · exact short _ (by decide) h
  split at h
  · next hlt =>
    rcases List.mem_cons.mp h with rfl | h
    · exact ⟨by decide, .inl (by decide)⟩
    rcases List.mem_cons.mp h with rfl | h
    · exact ⟨by decide, .inl (by decide)⟩
    · have hdigit := mem_hexDigits (by omega) h
      exact ⟨hdigit.1, .inl hdigit.2⟩
  · next hge =>
    rw [List.mem_singleton] at h
    subst h
    exact ⟨by omega, .inr rfl⟩

/-- A half of a pair is a code unit of sixteen bits. -/
private theorem surrogate_lt {w : Wide} (h : Paired w) {code : Nat}
    (hc : .surrogate code ∈ w) : code < 65536 := by
  induction w with
  | nil => cases hc
  | cons letter w ih =>
    cases letter with
    | char c => exact ih h (by simpa using hc)
    | surrogate other =>
      obtain ⟨hother, -, hw⟩ := h
      rcases List.mem_cons.mp hc with heq | hc
      · cases heq
        simp only [isHigh, isLow, Bool.and_eq_true, decide_eq_true_eq] at hother
        omega
      · exact ih hw hc

/-- A written string has no control characters, and beyond the ASCII ones only those of the text. -/
theorem mem_quote {w : Wide} (h : Paired w) {c : Char} (hc : c ∈ quote w) :
    0x20 ≤ c.toNat ∧ (c.toNat < 0x7F ∨ .char c ∈ w) := by
  simp only [quote, List.cons_append, List.mem_cons, List.mem_append, List.not_mem_nil, or_false,
    List.mem_flatMap] at hc
  rcases hc with rfl | ⟨letter, hletter, hc⟩ | rfl
  · exact ⟨by decide, .inl (by decide)⟩
  · cases letter with
    | char d =>
      obtain ⟨hge, hlt | rfl⟩ := mem_escape hc
      · exact ⟨hge, .inl hlt⟩
      · exact ⟨hge, .inr hletter⟩
    | surrogate code =>
      simp only [escapeLetter, List.mem_cons] at hc
      rcases hc with rfl | rfl | hc
      · exact ⟨by decide, .inl (by decide)⟩
      · exact ⟨by decide, .inl (by decide)⟩
      · have hdigit := mem_hexDigits (surrogate_lt h hletter) hc
        exact ⟨hdigit.1, .inl hdigit.2⟩
  · exact ⟨by decide, .inl (by decide)⟩

/-- Beyond the ASCII characters a written string has those of the text as they are. -/
theorem mem_quote_of_mem {w : Wide} {c : Char} (hc : .char c ∈ w) (h : 0x7F ≤ c.toNat) :
    c ∈ quote w := by
  have hne : ∀ d : Char, d.toNat < 0x7F → c ≠ d := by
    rintro d hd rfl
    omega
  have hescape : escape c = [c] := by
    unfold escape
    rw [if_neg (hne _ (by decide)), if_neg (hne _ (by decide)), if_neg (hne _ (by decide)),
      if_neg (hne _ (by decide)), if_neg (hne _ (by decide)), if_neg (hne _ (by decide)),
      if_neg (hne _ (by decide)), if_neg (by omega)]
  have hmem : c ∈ w.flatMap escapeLetter :=
    List.mem_flatMap.mpr ⟨.char c, hc, by simp [escapeLetter, hescape]⟩
  simp [quote, hmem]

end KconfigQuery.Json
