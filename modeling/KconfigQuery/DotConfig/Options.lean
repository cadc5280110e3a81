import KconfigQuery.DotConfig.Line
import KconfigQuery.Path
import KconfigQuery.Table

/-! # Kernel configurations

The configuration of a kernel directory is its file `.config`, read as a table of options: the
entry lines in order, where a later line for the same option exchanges the value.

* `entries_append`       the entries of two texts with a line end between them stand one after
                         the other
* `options_append`       hence the second text is laid over the first -/

namespace KconfigQuery.DotConfig

/-- Option values by name, in order of the first mention. -/
abbrev Options := Table String String

/-- The configuration file of a kernel directory. -/
def file (kernelDir : String) : String :=
  Path.join [kernelDir, ".config"]

/-- The key and value of an entry line. -/
def Line.pair? : Line → Option (String × String)
  | .skip => none
  | .entry key value => some (key, value)

/-- The lines of a file's text. -/
def lines (content : String) : List (List Char) :=
  Text.pieces '\n' content.toList

/-- The entries of a file's text, in order and with repetitions. -/
def entries (content : String) : List (String × String) :=
  (lines content).filterMap fun cs => (Line.ofChars cs).pair?

/-- The options that a file's text sets. -/
def options (content : String) : Options :=
  Table.ofList (entries content)

/-- Two texts with a line end between them have the entries of both. -/
theorem entries_append (c d : String) : entries (c ++ "\n" ++ d) = entries c ++ entries d := by
  simp [entries, lines, Text.pieces_append]

/-- The options of two texts: those of the first, and the entries of the second stored after them.
    -/
theorem options_append (c d : String) :
    options (c ++ "\n" ++ d) = (options c).putAll (entries d) := by
  simp [options, entries_append, Table.ofList, Table.putAll_append]

/-- The line that sets an option. -/
def renderEntry (entry : String × String) : String :=
  entry.1 ++ "=" ++ entry.2

/-- The options as a file's text. -/
def render (options : Options) : String :=
  String.join (options.entries.map fun entry => renderEntry entry ++ "\n")

/-- The option is built in. -/
def builtIn (options : Options) (option : String) : Bool :=
  options.get? option = some "y"

end KconfigQuery.DotConfig
