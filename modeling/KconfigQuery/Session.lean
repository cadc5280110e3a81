import KconfigQuery.Failure
import KconfigQuery.Output.Outcome

/-! # Sessions

A command that asks about a kernel works in a session: a kernel directory, and whether debug
messages are shown.  The kernel directory is the first that is given and not empty: on the command
line, by `KDIR`, by the settings, and last the working directory.

* `kernelDir_of_flag`   what is given on the command line comes before everything else -/

namespace KconfigQuery

/-- What the command line says about a session. -/
structure SessionFlags where
  kdir? : Option String
  verbose : Bool
deriving DecidableEq

/-- A session. -/
structure Session where
  kernelDir : String
  logger : Log.Logger
deriving DecidableEq

namespace Session

/-- The kernel directory that one of several sources gives; empty if none does. -/
def givenKernelDir (env : Environment) (flag? setting? : Option String) : String :=
  ([flag?.getD "", env.kernelDir?.getD "", setting?.getD ""].find? (· ≠ "")).getD ""

/-- The absolute path of the kernel directory. -/
def resolveKernelDir (env : Environment) (flag? setting? : Option String) :
    Except FileError String :=
  env.resolve (givenKernelDir env flag? setting?)

/-- A directory that is given as an option comes before the environment and the settings. -/
theorem kernelDir_of_flag {env : Environment} {flag : String} (h : flag ≠ "")
    (setting? : Option String) :
    resolveKernelDir env (some flag) setting? = env.resolve flag := by
  simp [resolveKernelDir, givenKernelDir, h]

/-- The first message of a session. -/
def openingEntry (session : Session) : Log.Entry :=
  ⟨.debug, "Kernel directory: " ++ session.kernelDir⟩

/-- Start a session.  It takes valid settings, even where they decide nothing. -/
def start (tree : FileTree) (env : Environment) (flags : SessionFlags) :
    Except Settings.Error Session :=
  match Settings.load tree env .empty false with
  | .error error => .error error
  | .ok settings =>
    match resolveKernelDir env flags.kdir? settings.kdir? with
    | .error error => .error (.file error)
    | .ok kernelDir =>
      .ok { kernelDir, logger := .console (flags.verbose || settings.verbose) }

/-- What is seen of events in a session. -/
def shown (session : Session) (palette : Text.Palette) (events : List Store.Event) :
    List Output.Event :=
  events.filterMap (Output.Event.ofStore? palette session.logger)

end Session

end KconfigQuery
