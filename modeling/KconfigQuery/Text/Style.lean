import KconfigQuery.Text.Cut

/-! # Terminal styles

A style is switched on and off by two control sequences around a text.  A text may itself switch
the style off, for instance because part of it was styled already; each such place is exchanged
for the switch-on sequence, so that the style lasts to the end.

* `paint_plain`   without colours a text is kept as it is -/

namespace KconfigQuery.Text

/-- The styles of the program's output. -/
inductive Style where
  | bold
  | dim
  | red
  | green
deriving DecidableEq

/-- Whether output is styled. -/
inductive Palette where
  | plain
  | colored
deriving DecidableEq

namespace Style

/-- The control sequence with the given number. -/
private def sequence (code : String) : String :=
  "\x1b[" ++ code ++ "m"

/-- The sequence that switches the style on. -/
def on : Style → String
  | bold => sequence "1"
  | dim => sequence "2"
  | red => sequence "31"
  | green => sequence "32"

/-- The sequence that switches the style off. -/
def off : Style → String
  | bold => sequence "22"
  | dim => sequence "22"
  | red => sequence "39"
  | green => sequence "39"

end Style

/-- The text in a style, if output is styled at all. -/
def Palette.paint (palette : Palette) (style : Style) (text : String) : String :=
  match palette with
  | .plain => text
  | .colored =>
    style.on ++
      String.ofList (replaceAll style.off.toList style.on.toList text.toList) ++ style.off

@[simp] theorem paint_plain (style : Style) (text : String) :
    Palette.plain.paint style text = text := rfl

end KconfigQuery.Text
