import KconfigQuery.CommandLine.Flags
import KconfigQuery.Program
import KconfigQuery.Text.Cut

/-! # Help pages

A help page has a title, a description, the ways of use, the commands, if there are any, and the
flags in the order of their names.  Commands and flags stand in tables of two columns. -/

namespace KconfigQuery.CommandLine

/-- A command as it is listed: its name and its description, which may be empty. -/
structure Listed where
  name : String
  description : String

/-- What a help page tells. -/
structure HelpPage where
  title : String
  description : String
  usage : List String
  commands : List Listed
  flags : List Flag

namespace HelpPage

private def lines (text : String) : List String :=
  (Text.pieces '\n' text.toList).map String.ofList

private def spaces (n : Nat) : String :=
  String.ofList (List.replicate n ' ')

/-- A row of a table: a label and a text, whose further lines stand below its first one. -/
def row (width : Nat) (label text : String) : String :=
  match lines text with
  | [] => ""
  | first :: more =>
    "  " ++ label ++ spaces (width - label.length) ++ first ++ "\n" ++
      String.join (more.map fun line => "  " ++ spaces width ++ line ++ "\n")

/-- A table of two columns, eight spaces apart. -/
def table (rows : List (String × String)) : String :=
  let width := (rows.map (·.1.length)).foldl max 0 + 8
  String.join (rows.map fun (label, text) => row width label text)

/-- A flag as it is listed. -/
def flagLabel (flag : Flag) : String :=
  let short := match flag.alias? with
    | some c => "-" ++ c.toString ++ ", "
    | none => "    "
  let value := match flag.kind with
    | .switch => ""
    | .text => " <string>"
  short ++ "--" ++ flag.name ++ value

/-- A part of the page under a heading. -/
def part (heading body : String) : String :=
  heading ++ ":\n" ++ body ++ "\n"

/-- The text of a page. -/
def text (page : HelpPage) : String :=
  let description := if page.description = "" then "" else page.description ++ "\n\n"
  let usage := part "USAGE" (String.join (page.usage.map fun line => "  " ++ line ++ "\n"))
  let commands :=
    if page.commands.isEmpty then ""
    else part "COMMANDS" (table (page.commands.map fun c => (c.name, c.description)))
  let sorted := page.flags.mergeSort fun a b => !decide (b.name < a.name)
  let flags := part "FLAGS" (table (sorted.map fun flag => (flagLabel flag, flag.description)))
  page.title ++ "\n\n" ++ description ++ usage ++ commands ++ flags

end HelpPage

end KconfigQuery.CommandLine
