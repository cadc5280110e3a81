import KconfigQuery.Table
import KconfigQuery.Text.Cut

/-! # Flags on the command line

An argument that starts with one or two dashes and then a letter, a digit or an underscore gives
flags: a single flag by its name after two dashes, or one flag per character after one dash.  A
value may follow after a dot, a colon or an equals sign; after one dash it belongs to the last
flag.  A flag that takes a text and got none takes the next argument, unless that one gives flags
itself.  The argument `--` ends the flags. -/

namespace KconfigQuery.CommandLine

/-- What a flag takes. -/
inductive FlagKind where
  | switch
  | text
deriving DecidableEq

/-- A flag that a command knows. -/
structure Flag where
  name : String
  alias? : Option Char
  kind : FlagKind
  description : String

/-- The flag by a name or an alias. -/
def findFlag? (flags : List Flag) (name : String) : Option Flag :=
  flags.find? fun flag => flag.name = name ∨ flag.alias?.map Char.toString = some name

/-- What is known of the arguments read so far. -/
structure Arguments where
  /-- The texts given for text flags and for switches, the last ones given. -/
  given : Table String String
  positionals : List String
  /-- The text flag that waits for the next argument. -/
  waiting? : Option String

namespace Arguments

/-- Before any argument is read. -/
def none : Arguments := ⟨.empty, [], .none⟩

/-- Whether a switch is on. -/
def isOn (args : Arguments) (name : String) : Bool :=
  match args.given.get? name with
  | some value => value ≠ "false"
  | .none => false

/-- The text given for a flag. -/
def text? (args : Arguments) (name : String) : Option String :=
  args.given.get? name

/-! ## Reading -/

/-- The characters that a flag's name starts with. -/
def isWordChar (c : Char) : Bool :=
  c.isAlphanum || c == '_'

/-- The characters that part a flag's name from its value. -/
def isDelimiter (c : Char) : Bool :=
  c == '.' || c == ':' || c == '='

/-- The flags that an argument gives. -/
structure FlagToken where
  /-- A flag per character. -/
  clustered : Bool
  name : List Char
  value? : Option String
deriving DecidableEq

/-- A name and the value after it. -/
def splitValue (cs : List Char) : List Char × Option String :=
  let name := cs.takeWhile fun c => !isDelimiter c
  match cs.dropWhile fun c => !isDelimiter c with
  | [] => (name, .none)
  | _ :: value => (name, some (String.ofList value))

/-- Read an argument as flags. -/
def FlagToken.ofArgument? (argument : String) : Option FlagToken :=
  let token clustered cs :=
    let (name, value?) := splitValue cs
    some { clustered, name, value? }
  match argument.toList with
  | '-' :: '-' :: c :: cs => if isWordChar c then token false (c :: cs) else .none
  | '-' :: c :: cs => if isWordChar c then token true (c :: cs) else .none
  | _ => .none

/-- Give a text to the flag that waits for one. -/
def supply (args : Arguments) (text : String) : Arguments :=
  match args.waiting? with
  | some name => { args with given := args.given.put name text, waiting? := .none }
  | .none => args

/-- Read one flag.  A flag that waits for a text gets an empty one first.  Unknown flags are
    passed over. -/
def readFlag (flags : List Flag) (args : Arguments) (name : String) (value? : Option String) :
    Arguments :=
  let args := args.supply ""
  match findFlag? flags name, value? with
  | .none, _ => args
  | some flag, some value => { args with given := args.given.put flag.name value }
  | some flag, .none =>
    match flag.kind with
    | .switch => { args with given := args.given.put flag.name "" }
    | .text => { args with waiting? := some flag.name }

/-- Read flags of one character each; the value belongs to the last one. -/
def readCluster (flags : List Flag) (args : Arguments) (value? : Option String) :
    List Char → Arguments
  | [] => args
  | [c] => args.readFlag flags c.toString value?
  | c :: cs => (args.readFlag flags c.toString .none).readCluster flags value? cs

/-- Read an argument that may give flags. -/
def readArgument (flags : List Flag) (args : Arguments) (argument : String) : Arguments :=
  match FlagToken.ofArgument? argument with
  | some token =>
    if token.clustered then args.readCluster flags token.value? token.name
    else args.readFlag flags (String.ofList token.name) token.value?
  | .none =>
    match args.waiting? with
    | some _ => args.supply argument
    | .none => { args with positionals := args.positionals ++ [argument] }

/-- Read the rest of the arguments. -/
def readAll (flags : List Flag) (args : Arguments) : List String → Arguments
  | [] => args.supply ""
  | argument :: rest =>
    if argument = "--" then
      let args := args.supply ""
      { args with positionals := args.positionals ++ rest }
    else (args.readArgument flags argument).readAll flags rest

/-- Read arguments. -/
def read (flags : List Flag) (arguments : List String) : Arguments :=
  none.readAll flags arguments

end Arguments

end KconfigQuery.CommandLine
