import KconfigQuery.Path
import KconfigQuery.Table
import KconfigQuery.Text.Wide

/-! # Settings

There are two settings: `kdir`, the default kernel directory, an absolute path, and `verbose`, a
truth value.  Either may be left out or empty.  `Raw` is a record of their texts, as they stand in
a file or on a command line; `Settings` is what such texts mean.  A text in a file may hold
unpaired surrogates, which are kept when the file is written again.

* `Raw.check_lenient`    a lenient reading never fails
* `Raw.check_strict`     where a strict reading succeeds, a lenient one says the same -/

namespace KconfigQuery

/-- What the settings mean. -/
structure Settings where
  kdir? : Option String
  verbose : Bool
deriving DecidableEq

namespace Settings

/-- The names of the settings. -/
inductive Key where
  | kdir
  | verbose
deriving DecidableEq

/-- A key as text. -/
def Key.name : Key → String
  | kdir => "kdir"
  | verbose => "verbose"

/-- The key of a name. -/
def Key.ofName? (name : String) : Option Key :=
  if name = "kdir" then some kdir
  else if name = "verbose" then some verbose
  else none

/-- A name is that of a setting iff it is its name. -/
theorem Key.ofName?_eq_some_iff {name : String} {key : Key} :
    Key.ofName? name = some key ↔ name = key.name := by
  unfold Key.ofName?
  split
  · next h => subst h; cases key <;> decide
  · split
    · next h => subst h; cases key <;> decide
    · next h₁ h₂ => cases key <;> simp [Key.name, h₁, h₂]

/-- The names of settings are `kdir` and `verbose`. -/
theorem Key.ofName?_eq_none_iff {name : String} :
    Key.ofName? name = none ↔ name ≠ "kdir" ∧ name ≠ "verbose" := by
  unfold Key.ofName?
  by_cases hkdir : name = "kdir"
  · simp [hkdir]
  · by_cases hverbose : name = "verbose" <;> simp [hkdir, hverbose]

/-- Different settings have different names. -/
theorem Key.name_injective {key other : Key} (h : key.name = other.name) : key = other := by
  have hother : Key.ofName? other.name = some key := Key.ofName?_eq_some_iff.mpr h.symm
  rw [Key.ofName?_eq_some_iff.mpr rfl] at hother
  exact (Option.some.inj hother).symm

/-- The texts of settings, in the order in which they were first given. -/
abbrev Raw := Table Key Text.Wide

/-- The text of a setting.  A setting that is missing counts as empty. -/
def Raw.text (raw : Raw) (key : Key) : String :=
  ((raw.get? key).map Text.Wide.text).getD ""

/-- Why a setting is refused. -/
inductive Problem where
  | unknownKey (name : String)
  | relativeKdir
  | notBoolean
deriving DecidableEq

/-- The message about a refused setting. -/
def Problem.message : Problem → String
  | unknownKey name => "Invalid config property: " ++ name
  | relativeKdir => "Invalid config property kdir: Must be an absolute path"
  | notBoolean => "Invalid config property verbose: Must be a boolean"

/-! ## The meaning of the texts -/

/-- The meaning of the kernel directory's text. -/
def kdirOf (text : String) : Except Problem (Option String) :=
  if text = "" then .ok none
  else if Path.isAbsolute text then .ok (some text)
  else .error .relativeKdir

/-- The meaning of the verbosity's text. -/
def verboseOf (text : String) : Except Problem Bool :=
  if text = "" then .ok false
  else if text = "true" then .ok true
  else if text = "false" then .ok false
  else .error .notBoolean

/-- A value that was refused gives way to the default if the reading is lenient. -/
def settle {α : Type} (lenient : Bool) (default : α) : Except Problem α → Except Problem α
  | .ok value => .ok value
  | .error problem => if lenient then .ok default else .error problem

/-- The meaning of a record. -/
def Raw.check (lenient : Bool) (raw : Raw) : Except Problem Settings :=
  match settle lenient none (kdirOf (raw.text .kdir)) with
  | .error problem => .error problem
  | .ok kdir? =>
    match settle lenient false (verboseOf (raw.text .verbose)) with
    | .error problem => .error problem
    | .ok verbose => .ok { kdir?, verbose }

/-- The texts of the first record, and of the second where the first has none. -/
def Raw.or (first second : Raw) : Raw :=
  second.overlay first

/-- A lenient check lets every record pass. -/
theorem Raw.check_lenient (raw : Raw) : ∃ settings, raw.check true = .ok settings := by
  unfold Raw.check
  cases kdirOf (raw.text .kdir) <;> cases verboseOf (raw.text .verbose) <;> simp [settle]

/-- What a strict check gives, a lenient one gives as well. -/
theorem Raw.check_strict {raw : Raw} {settings : Settings} (h : raw.check false = .ok settings) :
    raw.check true = .ok settings := by
  unfold Raw.check at h ⊢
  cases hk : kdirOf (raw.text .kdir) <;> cases hv : verboseOf (raw.text .verbose) <;>
    simp_all [settle]

/-! ## Changing a record -/

/-- The problem with giving a setting a text, if there is one. -/
def Key.problem? (key : Key) (text : String) : Option Problem :=
  match key with
  | kdir => match kdirOf text with
    | .ok _ => none
    | .error problem => some problem
  | verbose => match verboseOf text with
    | .ok _ => none
    | .error problem => some problem

/-- Give settings by their names, in order.  The first one that is refused stops the change. -/
def Raw.set (raw : Raw) : List (String × String) → Except Problem Raw
  | [] => .ok raw
  | (name, text) :: pairs =>
    match Key.ofName? name with
    | none => .error (.unknownKey name)
    | some key =>
      match key.problem? text with
      | some problem => .error problem
      | none => Raw.set (raw.put key (.ofString text)) pairs

end Settings

end KconfigQuery
