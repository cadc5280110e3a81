import KconfigQuery.Text.Cut
import KconfigQuery.Text.Units

/-! # Framed output

A report opens with a corner, ends with another, and may hold a box with a title.  The box is as
wide as its widest line or its title, as they are shown on a terminal. -/

namespace KconfigQuery.Output

/-- The first line of a report. -/
def intro (title : String) : String :=
  "┌  " ++ title ++ "\n"

/-- The last lines of a report. -/
def outro (message : String) : String :=
  "│\n└  " ++ message ++ "\n\n"

/-- A text repeated. -/
def replicate (n : Nat) (text : String) : String :=
  String.join (List.replicate n text)

/-- The width of a box around lines. -/
def boxWidth (title : String) (lines : List String) : Nat :=
  (lines.map Text.shownUnits).foldl max (Text.shownUnits title) + 2

/-- A line of a box, filled up to its width. -/
def row (width : Nat) (line : String) : String :=
  "│  " ++ line ++ replicate (width - Text.shownUnits line) " " ++ "│\n"

/-- A box around a text, with a title in its upper edge and an empty line above and below. -/
def note (text title : String) : String :=
  let lines := [""] ++ (Text.pieces '\n' text.toList).map String.ofList ++ [""]
  let width := boxWidth title lines
  "│\n◇  " ++ title ++ " " ++ replicate (max (width - Text.shownUnits title - 1) 1) "─" ++ "╮\n" ++
    String.join (lines.map (row width)) ++
    "├" ++ replicate (width + 2) "─" ++ "╯\n"

end KconfigQuery.Output
