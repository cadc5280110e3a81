import KconfigQuery.CommandLine.Run
import KconfigQuery.Proofs.GivenPairs
import KconfigQuery.Proofs.SettingsRoundTrip

/-! # Setting all that is given or nothing

The command that sets looks at its arguments twice.  First each of them has to have an equals sign,
and then each name has to be that of a setting and each text one that the setting accepts.  The
first argument that fails the first look is named, or else the first one that fails the second, and
the tree is as it was.  Only if all arguments pass both is anything written.

* `acceptable_iff`        which arguments pass both looks
* `Refusal.unique`        arguments are refused for one reason
* `run_set_all_or_none`   the command sets all settings that are given, or says why it sets none -/

namespace KconfigQuery

namespace Configure

open Settings (Accepted pairProblem? pairProblem?_eq_none_iff)

/-! ## Acceptable arguments -/

/-- The argument gives a setting a text that it accepts.  What stands before the first equals sign
    is the name. -/
def Acceptable (argument : String) : Prop :=
  ∃ name text, argument = name ++ "=" ++ text ∧ '=' ∉ name.toList ∧ Accepted name text

/-- An argument is cut at its first equals sign. -/
private theorem assignment?_eq_some_iff {argument name text : String} :
    assignment? argument = some (name, text) ↔
      argument = name ++ "=" ++ text ∧ '=' ∉ name.toList := by
  have htoList : argument = name ++ "=" ++ text ↔
      argument.toList = name.toList ++ '=' :: text.toList := by
    rw [← String.toList_inj]
    simp
  -- Both sides say where the characters are cut.
  rw [htoList, ← Text.cut?_eq_some_iff, assignment?, Option.map_eq_some_iff]
  constructor
  · rintro ⟨⟨left, right⟩, hcut, heq⟩
    cases heq
    simpa using hcut
  · intro hcut
    exact ⟨(name.toList, text.toList), hcut, by simp⟩

private theorem assignment?_eq_none_iff {argument : String} :
    assignment? argument = none ↔ '=' ∉ argument.toList := by
  rw [assignment?, Option.map_eq_none_iff, Text.cut?_eq_none_iff]

/-- If all arguments pass the first look, each of them gives its pair. -/
private theorem map_assignment? {arguments : List String} {pairs : List (String × String)}
    (h : assignments arguments = .ok pairs) : arguments.map assignment? = pairs.map some := by
  -- Induction on the arguments, as `assignments` goes through them.
  induction arguments generalizing pairs with
  | nil =>
    cases h
    rfl
  | cons argument rest ih =>
    rw [assignments] at h
    split at h
    · cases h
    · next pair hargument =>
      split at h
      · next more hrest =>
        cases h
        rw [List.map_cons, List.map_cons, hargument, ih hrest]
      · cases h

/-- The problem with what an argument sets, if it sets anything and there is a problem. -/
def problemOf? (argument : String) : Option Settings.Problem :=
  (assignment? argument).bind pairProblem?

/-- **Acceptable arguments**: those that have an equals sign and whose pair has no problem. -/
theorem acceptable_iff {argument : String} :
    Acceptable argument ↔ '=' ∈ argument.toList ∧ problemOf? argument = none := by
  cases hargument : assignment? argument with
  | none =>
    have hequals := assignment?_eq_none_iff.mp hargument
    refine iff_of_false ?_ fun h => hequals h.1
    rintro ⟨name, text, heq, hname, -⟩
    rw [assignment?_eq_some_iff.mpr ⟨heq, hname⟩] at hargument
    cases hargument
  | some pair =>
    obtain ⟨name, text⟩ := pair
    -- An argument that gives a pair has an equals sign, so only the problem is left.
    have hequals : '=' ∈ argument.toList := by
      rw [← Decidable.not_not (p := '=' ∈ argument.toList), ← assignment?_eq_none_iff, hargument]
      simp
    have hproblem : problemOf? argument = pairProblem? (name, text) := by
      rw [problemOf?, hargument, Option.bind_some]
    rw [hproblem, pairProblem?_eq_none_iff]
    constructor
    · rintro ⟨name', text', heq, hname, haccepted⟩
      rw [assignment?_eq_some_iff.mpr ⟨heq, hname⟩] at hargument
      cases hargument
      exact ⟨hequals, haccepted⟩
    · rintro ⟨-, haccepted⟩
      obtain ⟨heq, hname⟩ := assignment?_eq_some_iff.mp hargument
      exact ⟨name, text, heq, hname, haccepted⟩

instance (argument : String) : Decidable (Acceptable argument) :=
  decidable_of_iff _ acceptable_iff.symm

example : Acceptable "kdir=/a=b" ∧ ¬Acceptable " kdir=/a" ∧ ¬Acceptable "toString=" := by decide

/-! ## Reasons for a refusal -/

/-- What is said about an argument without an equals sign. -/
def noEquals (argument : String) : String :=
  "Invalid setting: " ++ argument ++ " (expected key=value)"

/-- What is said about a name that is none of a setting, or about a text that the setting of this
    name does not accept. -/
def notAccepted (name : String) : String :=
  if name = "kdir" then "Invalid config property kdir: Must be an absolute path"
  else if name = "verbose" then "Invalid config property verbose: Must be a boolean"
  else "Invalid config property: " ++ name

/-- Why arguments are refused, and what is said about it. -/
inductive Refusal (arguments : List String) : String → Prop
  /-- The first argument without an equals sign, whatever else is wrong with those before it. -/
  | ofNoEquals {before after : List String} {bad : String} :
    arguments = before ++ bad :: after → (∀ argument ∈ before, '=' ∈ argument.toList) →
    '=' ∉ bad.toList → Refusal arguments (noEquals bad)
  /-- The first pair that is not accepted, if all arguments have an equals sign. -/
  | ofNotAccepted {before after : List String} {name text : String} :
    (∀ argument ∈ arguments, '=' ∈ argument.toList) →
    arguments = before ++ (name ++ "=" ++ text) :: after →
    (∀ argument ∈ before, Acceptable argument) → '=' ∉ name.toList → ¬Accepted name text →
    Refusal arguments (notAccepted name)

/-- What is said about a pair with a problem depends on its name only. -/
private theorem message_of_pairProblem? {name text : String} {problem : Settings.Problem}
    (h : pairProblem? (name, text) = some problem) : problem.message = notAccepted name := by
  unfold pairProblem? at h
  split at h
  · next hkey =>
    -- A name that is none of a setting is told.
    cases h
    obtain ⟨hkdir, hverbose⟩ := Settings.Key.ofName?_eq_none_iff.mp hkey
    rw [notAccepted, if_neg hkdir, if_neg hverbose]
    rfl
  · next key hkey =>
    -- Each setting has one problem, whatever the text is.
    obtain rfl := Settings.Key.ofName?_eq_some_iff.mp hkey
    rw [Settings.Key.eq_problem_of_problem? h]
    cases key <;> rfl

/-- What is said about arguments, if they are refused. -/
def refusal? (arguments : List String) : Option String :=
  match assignments arguments with
  | .error bad => some (noEquals bad)
  | .ok pairs => (pairs.findSome? pairProblem?).map Settings.Problem.message

/-- The first problem of the pairs is the first problem of the arguments. -/
private theorem findSome?_pairProblem? {arguments : List String} {pairs : List (String × String)}
    (h : assignments arguments = .ok pairs) :
    pairs.findSome? pairProblem? = arguments.findSome? problemOf? := by
  calc pairs.findSome? pairProblem?
      = (pairs.map some).findSome? (·.bind pairProblem?) := by
        simp [List.findSome?_map, Function.comp_def]
    _ = (arguments.map assignment?).findSome? (·.bind pairProblem?) := by rw [map_assignment? h]
    _ = arguments.findSome? problemOf? := by rw [List.findSome?_map]; rfl

/-- Arguments that pass the first look are their pairs, joined by equals signs. -/
theorem eq_map_of_ok {arguments : List String} {pairs : List (String × String)}
    (h : assignments arguments = .ok pairs) :
    arguments = pairs.map (fun pair => pair.1 ++ "=" ++ pair.2) ∧
      ∀ pair ∈ pairs, '=' ∉ pair.1.toList := by
  -- Only the pairs of the arguments matter from here on, not how they were found.
  have hmap := map_assignment? h
  clear h
  induction arguments generalizing pairs with
  | nil =>
    obtain rfl : pairs = [] := by simpa using hmap.symm
    simp
  | cons argument rest ih =>
    cases pairs with
    | nil => simp at hmap
    | cons pair more =>
      rw [List.map_cons, List.map_cons, List.cons.injEq] at hmap
      obtain ⟨hargument, hname⟩ := assignment?_eq_some_iff.mp hmap.1
      obtain ⟨hrest, hnames⟩ := ih hmap.2
      refine ⟨by rw [List.map_cons, ← hargument, ← hrest], ?_⟩
      exact List.forall_mem_cons.mpr ⟨hname, hnames⟩

/-- Arguments that pass the first look have equals signs. -/
private theorem mem_equals_of_ok {arguments : List String} {pairs : List (String × String)}
    (h : assignments arguments = .ok pairs) : ∀ argument ∈ arguments, '=' ∈ argument.toList := by
  intro argument hargument
  by_contra hnone
  have hmem : assignment? argument ∈ pairs.map some :=
    map_assignment? h ▸ List.mem_map_of_mem hargument
  -- No pair is left out, so none of the results is missing.
  rw [assignment?_eq_none_iff.mpr hnone] at hmem
  simp at hmem

/-- Arguments that have equals signs pass the first look. -/
private theorem exists_assignments {arguments : List String}
    (h : ∀ argument ∈ arguments, '=' ∈ argument.toList) :
    ∃ pairs, assignments arguments = .ok pairs := by
  cases hpairs : assignments arguments with
  | ok pairs => exact ⟨pairs, rfl⟩
  | error bad =>
    rw [assignments_eq_error_iff] at hpairs
    -- The argument that stops the first look has no equals sign.
    have hbad : '=' ∉ bad.toList := by simpa using List.find?_some hpairs
    exact absurd (h bad (List.mem_of_find?_eq_some hpairs)) hbad

/-- Arguments are not refused iff all of them are acceptable. -/
private theorem refusal?_eq_none_iff {arguments : List String} :
    refusal? arguments = none ↔ ∀ argument ∈ arguments, Acceptable argument := by
  unfold refusal?
  split
  · next bad hbad =>
    -- The argument that is named is not acceptable.
    rw [assignments_eq_error_iff] at hbad
    have hequals : '=' ∉ bad.toList := by simpa using List.find?_some hbad
    refine iff_of_false (by simp) fun h => ?_
    exact hequals (acceptable_iff.mp (h bad (List.mem_of_find?_eq_some hbad))).1
  · next pairs hpairs =>
    rw [Option.map_eq_none_iff, findSome?_pairProblem? hpairs, List.findSome?_eq_none_iff]
    refine forall₂_congr fun argument hargument => ?_
    rw [acceptable_iff, and_iff_right (mem_equals_of_ok hpairs argument hargument)]

/-- The first argument without an equals sign is named, before any pair is looked at. -/
private theorem refusal?_of_noEquals {before after : List String} {bad : String}
    (hbefore : ∀ argument ∈ before, '=' ∈ argument.toList) (hbad : '=' ∉ bad.toList) :
    refusal? (before ++ bad :: after) = some (noEquals bad) := by
  have hfirst : assignments (before ++ bad :: after) = .error bad := by
    rw [assignments_eq_error_iff, List.find?_append,
      List.find?_eq_none.mpr (by simpa using hbefore)]
    simp [hbad]
  rw [refusal?, hfirst]

/-- Where every argument has an equals sign, the first pair that is not accepted is the reason. -/
private theorem refusal?_of_notAccepted {arguments before after : List String} {name text : String}
    (hequals : ∀ argument ∈ arguments, '=' ∈ argument.toList)
    (harguments : arguments = before ++ (name ++ "=" ++ text) :: after)
    (hbefore : ∀ argument ∈ before, Acceptable argument) (hname : '=' ∉ name.toList)
    (hnot : ¬Accepted name text) : refusal? arguments = some (notAccepted name) := by
  -- All arguments have an equals sign, so the second look is taken.
  obtain ⟨pairs, hpairs⟩ := exists_assignments hequals
  cases hproblem : pairProblem? (name, text) with
  | none => exact absurd (pairProblem?_eq_none_iff.mp hproblem) hnot
  | some problem =>
    have hargument : problemOf? (name ++ "=" ++ text) = some problem := by
      rw [problemOf?, assignment?_eq_some_iff.mpr ⟨rfl, hname⟩, Option.bind_some, hproblem]
    -- The arguments before it have no problem, so it is the first one.
    have hearlier : before.findSome? problemOf? = none := by
      rw [List.findSome?_eq_none_iff]
      exact fun argument h => (acceptable_iff.mp (hbefore argument h)).2
    have hfound : pairs.findSome? pairProblem? = some problem := by
      rw [findSome?_pairProblem? hpairs, harguments, List.findSome?_append, hearlier,
        List.findSome?_cons, hargument]
      rfl
    rw [refusal?, hpairs]
    simp only [hfound, Option.map_some, message_of_pairProblem? hproblem]

/-- What is said about refused arguments is a reason in the sense of `Refusal`. -/
private theorem refusal_of_refusal? {arguments : List String} {message : String}
    (h : refusal? arguments = some message) : Refusal arguments message := by
  unfold refusal? at h
  split at h
  · next bad hbad =>
    cases h
    obtain ⟨hequals, before, after, heq, hbefore⟩ :=
      List.find?_eq_some_iff_append.mp (assignments_eq_error_iff.mp hbad)
    exact .ofNoEquals heq (by simpa using hbefore) (by simpa using hequals)
  · next pairs hpairs =>
    obtain ⟨problem, hfound, rfl⟩ := Option.map_eq_some_iff.mp h
    rw [findSome?_pairProblem? hpairs] at hfound
    obtain ⟨before, argument, after, heq, hargument, hbefore⟩ :=
      List.findSome?_eq_some_iff.mp hfound
    have hequals := mem_equals_of_ok hpairs
    obtain ⟨⟨name, text⟩, hassignment, hproblem⟩ := Option.bind_eq_some_iff.mp hargument
    obtain ⟨rfl, hname⟩ := assignment?_eq_some_iff.mp hassignment
    rw [message_of_pairProblem? hproblem]
    refine .ofNotAccepted hequals heq ?_ hname ?_
    · -- The pairs before the first one with a problem are accepted.
      intro earlier hearlier
      have hmem : earlier ∈ arguments := heq ▸ List.mem_append_left _ hearlier
      exact acceptable_iff.mpr ⟨hequals earlier hmem, hbefore earlier hearlier⟩
    · rw [← pairProblem?_eq_none_iff, hproblem]
      simp

/-- `Refusal` describes what `refusal?` computes. -/
theorem refusal_iff {arguments : List String} {message : String} :
    Refusal arguments message ↔ refusal? arguments = some message := by
  refine ⟨?_, refusal_of_refusal?⟩
  intro h
  cases h with
  | ofNoEquals heq hbefore hbad =>
    subst heq
    exact refusal?_of_noEquals hbefore hbad
  | ofNotAccepted hequals heq hbefore hname hnot =>
    exact refusal?_of_notAccepted hequals heq hbefore hname hnot

/-- Arguments are refused for one reason. -/
theorem Refusal.unique {arguments : List String} {message other : String}
    (h : Refusal arguments message) (ho : Refusal arguments other) : message = other :=
  Option.some.inj ((refusal_iff.mp h).symm.trans (refusal_iff.mp ho))

/-! ## Carrying out the command -/

variable {tree : FileTree} {env : Environment} {old : Settings.Raw} {arguments : List String}

/-- Refused arguments leave the tree as it is, and the command says why. -/
private theorem perform_set_of_refusal {message : String}
    (hread : Settings.stored tree env = .ok old)
    (h : refusal? arguments = some message) (trace? : Option String) :
    (set arguments).perform trace? tree env = ⟨[], some (.known message), tree⟩ := by
  rw [refusal?] at h
  rw [perform]
  cases hassignments : assignments arguments with
  | error bad =>
    -- The first look fails, and the file is not even read.
    simp only [hassignments, Option.some.injEq] at h ⊢
    subst h
    rfl
  | ok pairs =>
    simp only [hassignments] at h ⊢
    obtain ⟨problem, hfound, rfl⟩ := Option.map_eq_some_iff.mp h
    -- The second look fails, when the file was read but nothing was written.
    have hset : old.set pairs = .error problem := Settings.set_eq_error_iff.mpr hfound
    have hchange : Settings.change tree env pairs = ⟨tree, some (.invalid problem)⟩ := by
      rw [Settings.change, hread]
      simp only [hset]
    rw [hchange, Option.map_some, Failure.ofSettings]

/-- Where the settings cannot be read nothing is set, but an argument without an equals sign is told
    all the same. -/
private theorem perform_set_of_unread {error : Settings.Error}
    (hread : Settings.stored tree env = .error error) (arguments : List String)
    (trace? : Option String) :
    (set arguments).perform trace? tree env =
      ⟨[], some (match assignments arguments with
        | .error bad => .known (noEquals bad)
        | .ok _ => .ofSettings trace? error), tree⟩ := by
  rw [perform]
  cases assignments arguments with
  | error bad => rfl
  | ok pairs => simp only [Settings.change, hread, Option.map_some]

/-- Arguments that are not refused are put into what is stored, and the record is written. -/
private theorem perform_set_of_accepted (hread : Settings.stored tree env = .ok old)
    (hwrite : Settings.CanStore tree env) (h : refusal? arguments = none)
    (trace? : Option String) :
    ∃ pairs raw, assignments arguments = .ok pairs ∧ old.set pairs = .ok raw ∧
      (set arguments).perform trace? tree env = ⟨[], none, (Settings.store tree env raw).tree⟩ := by
  rw [refusal?] at h
  cases hassignments : assignments arguments with
  | error bad =>
    rw [hassignments] at h
    cases h
  | ok pairs =>
    simp only [hassignments, Option.map_eq_none_iff, List.findSome?_eq_none_iff] at h
    -- No pair has a problem, so all of them are put in.
    obtain ⟨raw, hset⟩ : ∃ raw, old.set pairs = .ok raw :=
      Settings.exists_set_iff.mpr fun pair hpair => pairProblem?_eq_none_iff.mp (h pair hpair)
    have hchange : Settings.change tree env pairs = ⟨(Settings.store tree env raw).tree, none⟩ := by
      rw [Settings.change, hread]
      simp only [hset, FileTree.Attempt.mapError, hwrite.stopped? raw, Option.map_none]
    refine ⟨pairs, raw, rfl, hset, ?_⟩
    rw [perform]
    simp only [hassignments, hchange, Option.map_none]

end Configure

/-! ## The command on the command line -/

namespace CommandLine

open Configure (Acceptable Refusal noEquals refusal? refusal_iff refusal?_eq_none_iff)

/-- A run that fails and changes nothing. -/
def Host.failed (host : Host) (failure : Failure) : Output.Outcome :=
  host.tell 1 (Configure.failed host.palette failure)

/-- A run that fails with a message that is expected and changes nothing. -/
def Host.refused (host : Host) (message : String) : Output.Outcome :=
  host.tell 1 [.stderr (Log.failure host.palette message ++ "\n")]

/-- What a run of the `config` command does, if it does not ask for help. -/
private theorem Host.run_config (host : Host) {rest : List String}
    (hhelp : (Arguments.read Command.config.flags rest).isOn "help" = false) :
    host.run ("config" :: rest) =
      (Configure.ofArguments (Arguments.read Command.config.flags rest).positionals).run
        host.palette host.trace? host.tree host.env := by
  have hcommand : Command.ofName? "config" = some .config := by decide
  simp only [Host.run, hcommand, Host.runCommand, hhelp, Bool.false_eq_true, if_false]

/-- A run of `config set` carries out the command that sets. -/
private theorem Host.run_set (host : Host) {rest arguments : List String}
    (harguments : (Arguments.read Command.config.flags rest).positionals = "set" :: arguments)
    (hhelp : (Arguments.read Command.config.flags rest).isOn "help" = false) :
    host.run ("config" :: rest) =
      (Configure.set arguments).run host.palette host.trace? host.tree host.env := by
  rw [host.run_config hhelp, harguments]
  rfl

/-- Where the settings cannot be read the command fails in any case.  The arguments are looked at
    before the file is, but only for their equals signs. -/
private theorem Host.run_set_of_unread (host : Host) {rest arguments : List String}
    {error : Settings.Error}
    (harguments : (Arguments.read Command.config.flags rest).positionals = "set" :: arguments)
    (hhelp : (Arguments.read Command.config.flags rest).isOn "help" = false)
    (hread : Settings.stored host.tree host.env = .error error) :
    (∀ bad, arguments.find? (fun argument => '=' ∉ argument.toList) = some bad →
        host.run ("config" :: rest) = host.refused (noEquals bad)) ∧
      ((∀ argument ∈ arguments, '=' ∈ argument.toList) →
        host.run ("config" :: rest) = host.failed (.ofSettings host.trace? error)) := by
  have hrun := host.run_set harguments hhelp
  have hperform := Configure.perform_set_of_unread hread arguments host.trace?
  constructor
  · intro bad hbad
    rw [hrun, Configure.run, hperform, Configure.assignments_eq_error_iff.mpr hbad]
    rfl
  · intro hequals
    obtain ⟨pairs, hpairs⟩ := Configure.exists_assignments hequals
    rw [hrun, Configure.run, hperform, hpairs]
    rfl

/-- A host with an empty settings file, `/s`. -/
def Host.rooted : Host where
  palette := .plain
  trace? := none
  tree := FileTree.empty.put ["s"] (.file "")
  env := Settings.rootEnvironment

/-- The command that sets.  On a settings file that can be read, or is missing, and can be written,
    it succeeds exactly if every argument is acceptable.  Then each setting has the text that was
    given last for it, or else the one that it had, and the new record is written.  Otherwise the
    run says why the arguments are refused, and the tree is the same as before.

    Where the file cannot be read the command never succeeds and changes nothing.  It names the
    first argument without an equals sign, or else it tells why the file cannot be read. -/
theorem Host.run_set_all_or_none (host : Host) {rest arguments : List String}
    (harguments : (Arguments.read Command.config.flags rest).positionals = "set" :: arguments)
    (hhelp : (Arguments.read Command.config.flags rest).isOn "help" = false) :
    (∀ old, Settings.stored host.tree host.env = .ok old →
        Settings.CanStore host.tree host.env →
        ((host.run ("config" :: rest)).exitCode = 0 ↔
          ∀ argument ∈ arguments, Acceptable argument) ∧
        ((∀ argument ∈ arguments, Acceptable argument) →
          ∃ (pairs : List (String × String)) (raw : Settings.Raw),
            arguments = pairs.map (fun pair => pair.1 ++ "=" ++ pair.2) ∧
            (∀ pair ∈ pairs, '=' ∉ pair.1.toList) ∧
            (∀ key, raw.get? key =
              ((Settings.lastGiven? key pairs).map Text.Wide.ofString).or (old.get? key)) ∧
            host.run ("config" :: rest) =
              { events := []
                exitCode := 0
                tree := (Settings.store host.tree host.env raw).tree }) ∧
        ((¬∀ argument ∈ arguments, Acceptable argument) →
          ∃ message, Refusal arguments message ∧
            host.run ("config" :: rest) = host.refused message)) ∧
      ∀ error, Settings.stored host.tree host.env = .error error →
        (∀ bad, arguments.find? (fun argument => '=' ∉ argument.toList) = some bad →
          host.run ("config" :: rest) = host.refused (noEquals bad)) ∧
        ((∀ argument ∈ arguments, '=' ∈ argument.toList) →
          host.run ("config" :: rest) = host.failed (.ofSettings host.trace? error)) := by
  have hrun := host.run_set harguments hhelp
  constructor
  · -- The file is read: whether the arguments are refused decides it all.
    intro old hread hwrite
    cases hrefusal : refusal? arguments with
    | none =>
      have hall := refusal?_eq_none_iff.mp hrefusal
      obtain ⟨pairs, raw, hpairs, hset, hperform⟩ :=
        Configure.perform_set_of_accepted hread hwrite hrefusal host.trace?
      have houtcome : host.run ("config" :: rest) =
          { events := []
            exitCode := 0
            tree := (Settings.store host.tree host.env raw).tree } := by
        rw [hrun, Configure.run, hperform]
      obtain ⟨hjoined, hnames⟩ := Configure.eq_map_of_ok hpairs
      refine ⟨iff_of_true (by rw [houtcome]) hall, fun _ => ?_, fun h => absurd hall h⟩
      exact ⟨pairs, raw, hjoined, hnames, Settings.get?_of_set_eq hset, houtcome⟩
    | some message =>
      have hnot : ¬∀ argument ∈ arguments, Acceptable argument := by
        rw [← refusal?_eq_none_iff, hrefusal]
        simp
      have houtcome : host.run ("config" :: rest) = host.refused message := by
        rw [hrun, Configure.run, Configure.perform_set_of_refusal hread hrefusal]
        rfl
      refine ⟨iff_of_false ?_ hnot, fun h => absurd h hnot, fun _ => ?_⟩
      · rw [houtcome]
        exact Nat.one_ne_zero
      · exact ⟨message, refusal_iff.mpr hrefusal, houtcome⟩
  · intro error hread
    exact host.run_set_of_unread harguments hhelp hread

/-- A name that is none of a setting is refused, and the pair before it is not set. -/
theorem Host.rooted_run_set_refused :
    Host.rooted.run ["config", "set", "kdir=/a", "__proto__=/b"] =
      Host.rooted.refused "Invalid config property: __proto__" := by
  have hnode : Host.rooted.tree.node? ["s"] = some (.file "") := rfl
  have hset : Settings.Raw.set .empty [] = .ok .empty := rfl
  obtain ⟨hread, hchange, -⟩ := Settings.change_rootFile hnode (Settings.ofText_empty []) hset
  have hreason : Refusal ["kdir=/a", "__proto__=/b"] "Invalid config property: __proto__" :=
    refusal_iff.mpr (by rfl)
  have hnot : ¬∀ argument ∈ ["kdir=/a", "__proto__=/b"], Acceptable argument := by decide
  have harguments : (Arguments.read Command.config.flags
      ["set", "kdir=/a", "__proto__=/b"]).positionals = ["set", "kdir=/a", "__proto__=/b"] := by
    rfl
  obtain ⟨-, -, hrefused⟩ := (Host.rooted.run_set_all_or_none harguments (by rfl)).1 _ hread
    (Settings.canStore_of_change hchange)
  obtain ⟨message, hmessage, hrun⟩ := hrefused hnot
  rw [hrun, hmessage.unique hreason]

/-- A host with the settings file `/s` that gives a list what is no length. -/
def Host.unread : Host where
  palette := .plain
  trace? := none
  tree := FileTree.empty.put ["s"] (.file "a[]=1\n[a]\nlength=x\n")
  env := Settings.rootEnvironment

/-- A text that is acceptable is not set where the settings file makes no sense, though the file is
    there to be read and written. -/
theorem Host.unread_run_set :
    Host.unread.tree.contents Host.unread.env.workingDir "/s" = .ok "a[]=1\n[a]\nlength=x\n" ∧
      Settings.CanStore Host.unread.tree Host.unread.env ∧ Acceptable "kdir=/a" ∧
      Host.unread.run ["config", "set", "kdir=/a"] =
        Host.unread.failed (.unexpected "Invalid array length" none) := by
  have hnode : Host.unread.tree.node? ["s"] = some (.file "a[]=1\n[a]\nlength=x\n") := rfl
  have hread : Settings.stored Host.unread.tree Host.unread.env =
      .error (.defect .listLength) := by
    refine (Settings.stored_rootFile hnode).trans ?_
    rw [Settings.ofText_listLength]
    rfl
  have harguments : (Arguments.read Command.config.flags ["set", "kdir=/a"]).positionals =
      ["set", "kdir=/a"] := by
    rfl
  refine ⟨Settings.contents_rootFile hnode, ?_, by decide, ?_⟩
  · have hwrite := Settings.writeFile_rootFile hnode (Settings.Raw.render .empty)
    exact congrArg FileTree.Attempt.stopped? (Settings.store_root hwrite)
  · exact (Host.unread.run_set_of_unread harguments (by rfl) hread).2 (by decide)

end CommandLine

end KconfigQuery
