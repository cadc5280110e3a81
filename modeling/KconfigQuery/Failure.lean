import KconfigQuery.Json.Basic
import KconfigQuery.Program
import KconfigQuery.Settings.Storage
import KconfigQuery.Text.Cut
import KconfigQuery.Text.Style

/-! # Failures of a run

A failure that the program knows about is told by its message alone.  One that it did not expect
is reported as well: the trace of where it arose, if there is one, and a request to tell the
maintainers.  Values that are no errors can be thrown too; they are told by their text. -/

namespace KconfigQuery

/-- Why a run fails. -/
inductive Failure where
  | known (message : String)
  /-- The trace starts with the message. -/
  | unexpected (message : String) (trace? : Option String)
  | thrown (value : Json)

namespace Failure

/-- What is told about a failure. -/
def message : Failure → String
  | known message => message
  | unexpected message _ => message
  | thrown value => value.text

/-- There is something to tell about a failure. -/
def hasMessage : Failure → Bool
  | thrown value => value.hasText
  | _ => true

/-- The trace without its first line. -/
def traceLines (trace : String) : String :=
  String.ofList (Text.joinPieces '\n' ((Text.pieces '\n' trace.toList).drop 1))

private def indent : String := "    "

/-- The report on a failure, in the parts in which it is written. -/
def report (palette : Text.Palette) : Failure → List String
  | known _ => []
  | thrown _ => []
  | unexpected _ trace? =>
    let traced := match trace? with
      | none => []
      | some "" => []
      | some trace => [palette.paint .dim (traceLines trace) ++ "\n"]
    traced ++
      ["\n" ++ indent ++ palette.paint .dim Program.title ++ "\n",
        "\n" ++ indent ++ "Please open a bug report with the information above.\n"]

/-- A refused setting is known; trouble with the settings file is not expected. -/
def ofSettings (trace? : Option String) : Settings.Error → Failure
  | .invalid problem => known problem.message
  | error => unexpected error.message (trace?.map fun trace => error.message ++ "\n" ++ trace)

end Failure

end KconfigQuery
