import KconfigQuery.CommandLine.Run
import KconfigQuery.Proofs.InquirySteps
import KconfigQuery.Proofs.SettingsValidity

/-! # From the command line to an inquiry

The arguments of a command ask for an inquiry, unless they ask for help or lack one that the command
needs.  Whether two command lines ask for the same is told by what is read of them, so that a flag
may stand anywhere and in any spelling.

* `run_of_inquiry`       a command line that asks for an inquiry carries it out
* `run_of_no_inquiry`    any other one helps, or tells what it lacks
* `AgreeExcept.inquiry`  a flag that is no part of the inquiry does not change what is asked for
* `agreeExcept_cons`     a switch given before everything else changes nothing but itself -/

namespace KconfigQuery.CommandLine

/-- The inquiry that arguments of a command ask for, if they ask for one. -/
def Command.inquiry? (command : Command) (args : Arguments) : Option Inquiry :=
  if args.isOn "help" then none
  else
    match command with
    | get => if args.positionals = [] then none else some (.get args.positionals)
    | enabled =>
      match args.positionals with
      | [] => none
      | option :: _ => if option = "" then none else some (.enabled option (args.isOn "quiet"))
    | arch => some .arch
    | list => some (.list ⟨args.isOn "enabled", (args.text? "prefix").getD ""⟩)
    | info => some .info
    | config => none

/-- A run that asks for no inquiry: it helps, or tells what it lacks. -/
def Host.unasked (host : Host) (command : Command) (args : Arguments) : Output.Outcome :=
  if args.isOn "help" then host.tell 0 [.stdout command.help.text]
  else host.missing command (if command = .get then "options" else "option")

/-- Nothing is stored and there is no configuration to be read. -/
def Host.untouched : Host where
  palette := .plain
  trace? := none
  tree := .empty
  env := Settings.rootEnvironment

/-- On this host the settings are the defaults. -/
theorem Host.untouched_load :
    Settings.load Host.untouched.tree Host.untouched.env .empty false = .ok ⟨none, false⟩ :=
  Settings.load_of_noRootFile (by decide) rfl

variable (host : Host) {command : Command} {rest : List String}

/-- The name of a command carries it out. -/
private theorem Host.run_name (command : Command) (rest : List String) :
    host.run (command.name :: rest) = host.runCommand command rest := by
  have hname : Command.ofName? command.name = some command := by
    cases command <;> decide
  simp only [Host.run, hname]

/-- A command line that asks for an inquiry carries it out. -/
theorem Host.run_of_inquiry {inquiry : Inquiry}
    (h : command.inquiry? (Arguments.read command.flags rest) = some inquiry) :
    host.run (command.name :: rest) =
      inquiry.run host.palette host.trace? host.tree host.env
        (Arguments.read command.flags rest).session := by
  rw [host.run_name, Host.runCommand.eq_def]
  generalize Arguments.read command.flags rest = args at h ⊢
  unfold Command.inquiry? at h
  split at h
  · cases h
  · next hhelp =>
    -- Each command that is no longer in want of anything carries out its own inquiry.
    simp only [hhelp, Bool.false_eq_true, if_false]
    cases command with
    | get =>
      by_cases hnone : args.positionals = []
      · simp [hnone] at h
      · simp only [if_neg hnone, Option.some.injEq] at h
        simp only [if_neg hnone, ← h, Host.inquire]
    | enabled =>
      cases hgiven : args.positionals with
      | nil => simp [hgiven] at h
      | cons option more =>
        by_cases hempty : option = ""
        · simp [hgiven, hempty] at h
        · simp only [hgiven, if_neg hempty, Option.some.injEq] at h
          simp only [if_neg hempty, ← h, Host.inquire]
    | config => cases h
    | _ => cases h; rfl

/-- Any other command line about the kernel tree helps, or tells what it lacks. -/
theorem Host.run_of_no_inquiry (hc : command ≠ .config)
    (h : command.inquiry? (Arguments.read command.flags rest) = none) :
    host.run (command.name :: rest) =
      host.unasked command (Arguments.read command.flags rest) := by
  rw [host.run_name, Host.runCommand.eq_def, Host.unasked]
  generalize Arguments.read command.flags rest = args at h ⊢
  unfold Command.inquiry? at h
  split at h
  · next hhelp => simp only [hhelp, if_true]
  · next hhelp =>
    simp only [hhelp, Bool.false_eq_true, if_false]
    cases command with
    -- Only the commands that need an argument can lack one.
    | get =>
      have hnone : args.positionals = [] := by simpa using h
      simp only [hnone, if_true]
    | enabled =>
      cases hgiven : args.positionals with
      | nil => rfl
      | cons option more =>
        have hempty : option = "" := by simpa [hgiven] using h
        simp only [hempty, if_true]
        rfl
    | config => exact absurd rfl hc
    | _ => cases h

/-! ## Command lines that differ in one flag -/

/-- The readings differ at most in what is given for one flag. -/
structure Arguments.AgreeExcept (name : String) (args other : Arguments) : Prop where
  positionals : args.positionals = other.positionals
  text : ∀ flag ≠ name, args.text? flag = other.text? flag

namespace Arguments.AgreeExcept

variable {name : String} {args other : Arguments} (h : args.AgreeExcept name other)
include h

/-- Any other switch is on in both readings or in none. -/
theorem isOn {flag : String} (hflag : flag ≠ name) : args.isOn flag = other.isOn flag := by
  have htext : args.given.get? flag = other.given.get? flag := h.text flag hflag
  rw [Arguments.isOn, Arguments.isOn, htext]

/-- A flag that is no part of an inquiry does not change what is asked for. -/
theorem inquiry (hname : name ∉ ["help", "quiet", "enabled", "prefix"]) (command : Command) :
    command.inquiry? args = command.inquiry? other := by
  -- An inquiry depends on four flags besides the arguments that are no flags.
  simp only [List.mem_cons, List.not_mem_nil, or_false, not_or] at hname
  obtain ⟨hhelp, hquiet, henabled, hstart⟩ := hname
  simp only [Command.inquiry?, h.positionals, h.isOn (Ne.symm hhelp), h.isOn (Ne.symm hquiet),
    h.isOn (Ne.symm henabled), h.text _ (Ne.symm hstart)]

/-- A flag that is no part of a session does not change it. -/
theorem session (hname : name ≠ "kdir" ∧ name ≠ "verbose") : args.session = other.session := by
  rw [Arguments.session, Arguments.session, h.text _ hname.1.symm, h.isOn hname.2.symm]

/-- Without a wish for help nothing changes about what is lacking. -/
theorem unasked (hname : name ≠ "help") (host : Host) (command : Command) :
    host.unasked command args = host.unasked command other := by
  rw [Host.unasked, Host.unasked, h.isOn (Ne.symm hname)]

end Arguments.AgreeExcept

/-- The readings agree so far, and the same flag waits for a text. -/
structure Arguments.Alike (name : String) (args other : Arguments) : Prop
    extends args.AgreeExcept name other where
  waiting : args.waiting? = other.waiting?

namespace Arguments.Alike

variable {name : String} {args other : Arguments}

/-- The readings stay alike when the same is given to both. -/
theorem put (h : args.Alike name other) (flag value : String) :
    Alike name { args with given := args.given.put flag value }
      { other with given := other.given.put flag value } where
  positionals := h.positionals
  text := by
    intro asked hasked
    have htext : args.given.get? asked = other.given.get? asked := h.text asked hasked
    simp only [text?, Table.get?_put, htext]
  waiting := h.waiting

/-- The flag that waits, if one does, gets the same text in both readings. -/
theorem supply (h : args.Alike name other) (text : String) :
    (args.supply text).Alike name (other.supply text) := by
  have hw := h.waiting
  unfold Arguments.supply
  rw [← hw]
  cases args.waiting? with
  | none => exact h
  | some flag =>
    have hput := h.put flag text
    exact ⟨⟨hput.positionals, hput.text⟩, rfl⟩

/-- A flag is read alike. -/
theorem readFlag (h : args.Alike name other) (flags : List Flag) (flag : String)
    (value? : Option String) :
    (args.readFlag flags flag value?).Alike name (other.readFlag flags flag value?) := by
  have hsupply := h.supply ""
  unfold Arguments.readFlag
  cases findFlag? flags flag with
  | none => exact hsupply
  | some known =>
    cases value? with
    | some value => exact hsupply.put known.name value
    -- A switch is on at once, and a flag that takes a text waits for one.
    | none =>
      cases hkind : known.kind with
      | switch =>
        simp only [hkind]
        exact hsupply.put known.name ""
      | text =>
        simp only [hkind]
        exact ⟨⟨hsupply.positionals, hsupply.text⟩, rfl⟩

/-- Flags of one character each are read alike. -/
theorem readCluster (h : args.Alike name other) (flags : List Flag) (value? : Option String)
    (cs : List Char) :
    (args.readCluster flags value? cs).Alike name (other.readCluster flags value? cs) := by
  induction cs generalizing args other with
  | nil => exact h
  | cons c cs ih =>
    -- Only the last character of a cluster takes the value.
    cases cs with
    | nil => exact h.readFlag flags c.toString value?
    | cons next rest => exact ih (h.readFlag flags c.toString .none)

/-- One argument is read alike, whatever it is. -/
theorem readArgument (h : args.Alike name other) (flags : List Flag) (argument : String) :
    (args.readArgument flags argument).Alike name (other.readArgument flags argument) := by
  have hw := h.waiting
  unfold Arguments.readArgument
  cases FlagToken.ofArgument? argument with
  | some token =>
    by_cases hclustered : token.clustered
    · simp only [hclustered, if_true]
      exact h.readCluster flags token.value? token.name
    · simp only [hclustered, Bool.false_eq_true, if_false]
      exact h.readFlag flags _ token.value?
  | none =>
    -- The argument goes to the flag that waits, and in both readings that is the same one.
    simp only [← hw]
    cases args.waiting? with
    | some flag => exact h.supply argument
    | none => exact ⟨⟨congrArg (· ++ [argument]) h.positionals, h.text⟩, rfl⟩

/-- **All arguments** are read alike by readings that are alike. -/
theorem readAll (h : args.Alike name other) (flags : List Flag) (arguments : List String) :
    (args.readAll flags arguments).Alike name (other.readAll flags arguments) := by
  induction arguments generalizing args other with
  | nil => exact h.supply ""
  | cons argument rest ih =>
    unfold Arguments.readAll
    -- After the end of the flags all arguments are taken as they are.
    split
    · have hsupply := h.supply ""
      exact ⟨⟨congrArg (· ++ rest) hsupply.positionals, hsupply.text⟩, hsupply.waiting⟩
    · exact ih (h.readArgument flags argument)

end Arguments.Alike

/-- A switch that is given before everything else changes nothing but itself. -/
theorem Arguments.agreeExcept_cons {flags : List Flag} {argument name : String} (value : String)
    (hend : argument ≠ "--")
    (h : none.readArgument flags argument = { none with given := .put .empty name value })
    (rest : List String) :
    (read flags rest).AgreeExcept name (read flags (argument :: rest)) := by
  -- The switch is the only thing that has been read so far.
  have hstart : none.Alike name { none with given := .put .empty name value } := by
    refine ⟨⟨rfl, fun flag hflag => ?_⟩, rfl⟩
    rw [text?, text?, Table.get?_put, if_neg hflag]
    rfl
  have hread : read flags (argument :: rest) =
      Arguments.readAll flags { none with given := .put .empty name value } rest := by
    rw [read, Arguments.readAll, if_neg hend, h]
  rw [hread]
  exact (hstart.readAll flags rest).toAgreeExcept

end KconfigQuery.CommandLine
