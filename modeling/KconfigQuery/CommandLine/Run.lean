import KconfigQuery.Command.Configure
import KconfigQuery.Command.Inquiry
import KconfigQuery.CommandLine.Help

/-! # The command line

The first argument names a command and the rest is for that command.  Without a command the
program tells its version or helps; so does every command that is asked to help, or that lacks an
argument it needs.

* `Host.run_version`   without a command the version is told before any help -/

namespace KconfigQuery.CommandLine

/-! ## Flags -/

def helpFlag : Flag := ⟨"help", some 'h', .switch, "Show help"⟩

def versionFlag : Flag := ⟨"version", none, .switch, "Show version"⟩

/-- The flags of every inquiry. -/
def sessionFlags : List Flag := [
  ⟨"kdir", some 'k', .text, "Kernel build directory containing .config " ++
    "(default: $KDIR, the kdir setting, or the current directory)"⟩,
  ⟨"verbose", none, .switch, "Print debug diagnostics to stderr (default: false)"⟩]

def quietFlag : Flag := ⟨"quiet", some 'q', .switch, "Only set the exit code"⟩

def enabledFlag : Flag := ⟨"enabled", some 'e', .switch, "Only options that are built in (=y)"⟩

def startFlag : Flag :=
  ⟨"prefix", some 'p', .text, "Only options whose name starts with this prefix"⟩

/-! ## Commands -/

/-- The commands of the program. -/
inductive Command where
  | get
  | enabled
  | arch
  | list
  | info
  | config
deriving DecidableEq

namespace Command

/-- All commands, as they are listed. -/
def all : List Command := [get, enabled, arch, list, info, config]

/-- The word for a command. -/
def name : Command → String
  | get => "get"
  | enabled => "enabled"
  | arch => "arch"
  | list => "list"
  | info => "info"
  | config => "config"

/-- The command that a word stands for. -/
def ofName? (name : String) : Option Command :=
  all.find? (·.name = name)

/-- The flags of a command. -/
def flags : Command → List Flag
  | get => helpFlag :: sessionFlags
  | enabled => helpFlag :: quietFlag :: sessionFlags
  | arch => helpFlag :: sessionFlags
  | list => helpFlag :: enabledFlag :: startFlag :: sessionFlags
  | info => helpFlag :: sessionFlags
  | config => [helpFlag]

/-- The arguments of a command, as its help page shows them. -/
def parameters : Command → List String
  | get => ["<options...>"]
  | enabled => ["<option>"]
  | config => ["[mode]", "[key=value...]"]
  | _ => []

/-- What a command does, as far as its help page tells. -/
def description : Command → String
  | get => "\n".intercalate [
    "Print the value of kernel config options",
    "",
    "Examples:",
    "  kconfig-probe get CONFIG_SMP                 Print CONFIG_SMP=<value>",
    "  kconfig-probe get -k ../build CONFIG_HZ      Read .config from ../build"]
  | arch => "\n".intercalate [
    "Print the CPU architecture the kernel is configured for",
    "",
    "The architecture is the arch/<name> directory whose CONFIG_<NAME> option",
    "is enabled. Out-of-tree build directories are followed through their",
    "\"source\" link. Legacy names (um, i386, x86_64, powerpc, sh) are used when",
    "no directory matches."]
  | config => "\n".intercalate [
    "View or modify kconfig-probe settings",
    "",
    "Settings:",
    "  kdir=<absolute path>    Default kernel directory",
    "  verbose=<true|false>    Print debug diagnostics"]
  | _ => ""

/-- The help page of a command. -/
def help (command : Command) : HelpPage where
  title := Program.name ++ " " ++ command.name ++ " v" ++ Program.version
  description := command.description
  usage := [" ".intercalate
    ([Program.name, command.name, "[flags...]"] ++ command.parameters)]
  commands := []
  flags := command.flags

end Command

/-- The flags of the program without a command. -/
def rootFlags : List Flag := [helpFlag, versionFlag]

/-- The help page of the program. -/
def rootHelp : HelpPage where
  title := Program.title
  description := "Query Linux kernel build configurations (.config)"
  usage := [Program.name ++ " [flags...]", Program.name ++ " <command>"]
  commands := Command.all.map fun command => ⟨command.name, command.description⟩
  flags := rootFlags

/-! ## Running -/

/-- What a run is carried out with. -/
structure Host where
  palette : Text.Palette
  /-- The trace that is told of an unexpected failure, where traces are kept. -/
  trace? : Option String
  tree : FileTree
  env : Environment

/-- A run that only writes. -/
def Host.tell (host : Host) (exitCode : Nat) (events : List Output.Event) : Output.Outcome :=
  { events, exitCode, tree := host.tree }

/-- A run that misses an argument. -/
def Host.missing (host : Host) (command : Command) (parameter : String) : Output.Outcome :=
  host.tell 1 [
    .stderr ("Error: Missing required parameter \"" ++ parameter ++ "\"\n\n"),
    .stdout command.help.text]

/-- What the flags say about a session. -/
def Arguments.session (args : Arguments) : SessionFlags where
  kdir? := args.text? "kdir"
  verbose := args.isOn "verbose"

/-- Carry out an inquiry. -/
def Host.inquire (host : Host) (args : Arguments) (inquiry : Inquiry) : Output.Outcome :=
  inquiry.run host.palette host.trace? host.tree host.env args.session

/-- Carry out a command. -/
def Host.runCommand (host : Host) (command : Command) (arguments : List String) :
    Output.Outcome :=
  let args := Arguments.read command.flags arguments
  if args.isOn "help" then host.tell 0 [.stdout command.help.text]
  else
    match command with
    | .get =>
      if args.positionals = [] then host.missing command "options"
      else host.inquire args (.get args.positionals)
    | .enabled =>
      match args.positionals with
      | [] => host.missing command "option"
      | option :: _ =>
        if option = "" then host.missing command "option"
        else host.inquire args (.enabled option (args.isOn "quiet"))
    | .arch => host.inquire args .arch
    | .list =>
      host.inquire args (.list ⟨args.isOn "enabled", (args.text? "prefix").getD ""⟩)
    | .info => host.inquire args .info
    | .config =>
      (Configure.ofArguments args.positionals).run host.palette host.trace? host.tree host.env

/-- Run the program without a command. -/
def Host.runRoot (host : Host) (arguments : List String) : Output.Outcome :=
  if (Arguments.read rootFlags arguments).isOn "version" then
    host.tell 0 [.line Program.version]
  else host.tell 0 [.stdout rootHelp.text]

/-- Run the program. -/
def Host.run (host : Host) (arguments : List String) : Output.Outcome :=
  match arguments with
  | [] => host.runRoot []
  | first :: rest =>
    match Command.ofName? first with
    | some command => host.runCommand command rest
    | none => host.runRoot arguments

/-- The kernel directory that a run asks about, if it asks about any. -/
def Host.kernelDir? (host : Host) (arguments : List String) : Option String :=
  match arguments with
  | [] => none
  | first :: rest => do
    let command ← Command.ofName? first
    let session ← (Session.start host.tree host.env
      (Arguments.read command.flags rest).session).toOption
    return session.kernelDir

/-- Arguments that name no command are for the program itself. -/
theorem Host.run_of_noCommand (host : Host) {arguments : List String}
    (h : ∀ first ∈ arguments.head?, Command.ofName? first = none) :
    host.run arguments = host.runRoot arguments := by
  cases arguments with
  | nil => rfl
  | cons first rest => simp only [Host.run, h first rfl]

/-- Without a command the version is told, whatever else is asked for. -/
theorem Host.run_version (host : Host) {arguments : List String}
    (h : ∀ first ∈ arguments.head?, Command.ofName? first = none)
    (hversion : (Arguments.read rootFlags arguments).isOn "version") :
    host.run arguments = host.tell 0 [.line Program.version] := by
  rw [host.run_of_noCommand h, Host.runRoot, if_pos hversion]

example (host : Host) :
    host.run ["--help", "--version"] = host.tell 0 [.line Program.version] := by
  rfl

end KconfigQuery.CommandLine
