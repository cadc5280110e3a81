import KconfigQuery.Text.Cut

/-! # Terminal control sequences

A control sequence starts with an escape or with the control sequence introducer, and brackets
and other marks may follow.  Then comes either a command that a bell ends, such as a window title
or a link, or numbers and a final character, as for colours.

* `afterSequence?_of_plain`   a sequence starts with one of its two introducers
* `dropSequences_of_plain`    a text without introducers is kept -/

namespace KconfigQuery.Text

/-- The characters that start a control sequence. -/
def isIntroducer (c : Char) : Bool :=
  c == '\x1b' || c == '\u009B'

/-- The brackets and marks that may follow. -/
def isMark (c : Char) : Bool :=
  c == '[' || c == ']' || c == '(' || c == ')' || c == '#' || c == ';' || c == '?'

/-! ## Commands -/

/-- The characters in the words of a command. -/
def isCommandChar (c : Char) : Bool :=
  c.isAlphanum || c == '-' || c == '/' || c == '#' || c == '&' || c == '.' || c == ':' ||
    c == '=' || c == '?' || c == '%' || c == '@' || c == '~' || c == '_'

/-- The text is a command: words that are parted by semicolons.  The first one holds letters and
    digits only; where it is empty, no other one is. -/
def isCommand (cs : List Char) : Bool :=
  match pieces ';' cs with
  | [] => false
  | first :: words =>
    first.all Char.isAlphanum && words.all (·.all isCommandChar) &&
      (first ≠ [] || words.all (· ≠ []))

/-- What follows the bell that ends the command at the front of the text. -/
def afterCommand? (cs : List Char) : Option (List Char) :=
  match cut? '\x07' cs with
  | some (command, rest) => if isCommand command then some rest else none
  | none => none

/-! ## Numbers -/

/-- Up to `n` digits at the front, each possible way to stop, the longest first. -/
def digitRuns : Nat → List Char → List (List Char)
  | 0, cs => [cs]
  | _ + 1, [] => [[]]
  | n + 1, c :: cs => if c.isDigit then digitRuns n cs ++ [c :: cs] else [c :: cs]

/-- Any number of further numbers, each after a semicolon, every way to stop.  The first argument
    bounds the number of semicolons. -/
def furtherNumbers : Nat → List Char → List (List Char)
  | n + 1, ';' :: cs => (digitRuns 4 cs).flatMap (furtherNumbers n) ++ [';' :: cs]
  | _, cs => [cs]

/-- The numbers of a sequence: none, or one of one to four digits and further ones. -/
def numbers (cs : List Char) : List (List Char) :=
  match cs with
  | c :: rest =>
    if c.isDigit then (digitRuns 3 rest).flatMap (furtherNumbers rest.length) ++ [cs] else [cs]
  | [] => [[]]

/-- The characters that end a sequence after its numbers. -/
def isFinal (c : Char) : Bool :=
  c.isDigit || ('A' ≤ c && c ≤ 'P') || ('R' ≤ c && c ≤ 'T') || c == 'Z' || c == 'c' ||
    ('f' ≤ c && c ≤ 'n') || ('q' ≤ c && c ≤ 'u') || c == 'y' || c == '=' || c == '>' ||
    c == '<' || c == '~'

/-- What follows the numbers and the final character at the front of the text. -/
def afterNumbers? (cs : List Char) : Option (List Char) :=
  (numbers cs).findSome? fun
    | c :: rest => if isFinal c then some rest else none
    | [] => none

/-! ## Sequences -/

/-- What follows the rest of a sequence, given after its marks. -/
def afterBody? (cs : List Char) : Option (List Char) :=
  (afterCommand? cs).or (afterNumbers? cs)

/-- What follows the rest of a sequence, given after its introducer.  As many marks as possible
    are taken for such; only if that leads nowhere, the last one belongs to a command. -/
def afterMarks? : List Char → Option (List Char)
  | [] => none
  | c :: cs =>
    if isMark c then (afterMarks? cs).or (afterBody? (c :: cs)) else afterBody? (c :: cs)

/-- What follows the control sequence at the front of the text, if one stands there. -/
def afterSequence? (cs : List Char) : Option (List Char) :=
  match cs with
  | c :: rest => if isIntroducer c then afterMarks? rest else none
  | [] => none

/-- The text without its control sequences.  The first argument bounds the steps. -/
def dropSequences : Nat → List Char → List Char
  | 0, cs => cs
  | _ + 1, [] => []
  | n + 1, c :: cs =>
    match afterSequence? (c :: cs) with
    | some rest => dropSequences n rest
    | none => c :: dropSequences n cs

/-- No control sequence starts with a character that introduces none. -/
theorem afterSequence?_of_plain {c : Char} (h : isIntroducer c = false) (cs : List Char) :
    afterSequence? (c :: cs) = none := by
  simp [afterSequence?, h]

/-- A text without such characters stays as it is. -/
theorem dropSequences_of_plain {cs : List Char} (h : ∀ c ∈ cs, isIntroducer c = false) (n : Nat) :
    dropSequences n cs = cs := by
  induction cs generalizing n with
  | nil => cases n <;> rfl
  | cons c cs ih =>
    cases n with
    | zero => rfl
    | succ n =>
      rw [dropSequences, afterSequence?_of_plain (h c (by simp))]
      simp [ih fun d hd => h d (List.mem_cons_of_mem _ hd)]

end KconfigQuery.Text
