import Phrasebook.Path

/-!
# Command lines

The commands of the program with their options, and how a list of arguments is read. An option with
a value is settled only when the next option is met or the arguments end, so an argument that is not
known at all is complained about before a value that cannot be used.
-/

namespace Phrasebook

namespace CommandLine

/-- The options of `scan`. -/
structure ScanOptions where
  path : Option Path
  verbose : Bool
  deriving DecidableEq, Repr

/-- The options of `run`. -/
structure RunOptions where
  path : Option Path
  verbose : Bool
  table : Option String
  output : Option Path
  catalog : Option Path
  locale : Option String
  force : Bool
  deriving DecidableEq, Repr

/-- A command with its options. -/
inductive Command where
  | run (options : RunOptions)
  | scan (options : ScanOptions)
  | init
  deriving DecidableEq, Repr

/-- The command asks for verbose output. -/
def Command.verbose : Command → Bool
  | run options => options.verbose
  | scan options => options.verbose
  | init => false

/-- What help can be asked about. -/
inductive Topic where
  | program
  | run
  | scan
  | init
  | help
  deriving DecidableEq, Repr

/-- The subcommand a word names. -/
def Topic.ofWord? (word : String) : Option Topic :=
  [("run", run), ("scan", scan), ("init", init), ("help", help)].lookup word

/-- Why arguments do not give a command. -/
inductive Refusal where
  | unknownArgument
  | invalidSubcommand
  /-- A value is missing, or is empty where it must not be. -/
  | invalidValue
  /-- An option is given twice. -/
  | argumentConflict
  /-- A value is given to an option that takes none. -/
  | tooManyValues
  | displayHelp (topic : Topic)
  | displayVersion
  deriving DecidableEq, Repr

/-- The options there are. -/
inductive Flag where
  | path
  | verbose
  | table
  | output
  | catalog
  | locale
  | force
  | help
  | version
  deriving DecidableEq, Repr

namespace Flag

/-- The name of an option after two dashes. -/
def long : Flag → String
  | path => "path"
  | verbose => "verbose"
  | table => "table"
  | output => "output"
  | catalog => "catalog"
  | locale => "locale"
  | force => "force"
  | help => "help"
  | version => "version"

/-- The letter of an option after one dash. -/
def short? : Flag → Option Char
  | verbose => some 'v'
  | help => some 'h'
  | version => some 'V'
  | _ => none

/-- The option has a value. -/
def takesValue : Flag → Bool
  | path | table | output | catalog | locale => true
  | verbose | force | help | version => false

/-- The value must not be empty. -/
def isPath : Flag → Bool
  | path | output | catalog => true
  | _ => false

end Flag

/-- The options that can be given to a subcommand. -/
def Topic.flags : Topic → List Flag
  | program => [.help, .version]
  | run => [.path, .verbose, .table, .output, .catalog, .locale, .force, .help]
  | scan => [.path, .verbose, .help]
  | init => [.help]
  | help => []

/-- The options given so far, with their values, and one that has not been settled yet, whose value
    may still be missing. -/
structure Settings where
  given : List (Flag × String)
  pending : Option (Flag × Option String)
  deriving DecidableEq, Repr

namespace Settings

/-- Nothing has been given. -/
def empty : Settings := ⟨[], none⟩

/-- Adds an option that may be given once. -/
def put (settings : Settings) (flag : Flag) (value : String) : Except Refusal Settings :=
  if (settings.given.lookup flag).isSome then .error .argumentConflict
  else if flag.isPath && value.isEmpty then .error .invalidValue
  else .ok { settings with given := settings.given ++ [(flag, value)] }

/-- Settles the option that is pending. -/
def settle (settings : Settings) : Except Refusal Settings :=
  match settings.pending with
  | none => .ok settings
  | some (_, none) => .error .invalidValue
  | some (flag, some value) => { settings with pending := none }.put flag value

/-- Takes an option with its value. Help and version end the reading. -/
def take (settings : Settings) (topic : Topic) (flag : Flag) (value : String) :
    Except Refusal Settings := do
  let settings ← settings.settle
  match flag with
  | .help => throw (.displayHelp topic)
  | .version => throw .displayVersion
  | flag => settings.put flag value

/-- Takes an option after two dashes, with the value after its equals sign if there is one. -/
def takeLong (settings : Settings) (topic : Topic) (name : String) (value : Option String) :
    Except Refusal Settings := do
  match topic.flags.find? (·.long = name), value with
  | none, _ => throw .unknownArgument
  | some flag, none =>
    if flag.takesValue then
      return { ← settings.settle with pending := some (flag, none) }
    else
      settings.take topic flag ""
  | some flag, some value =>
    if flag.takesValue then settings.take topic flag value else throw .tooManyValues

/-- Takes the letters after one dash. -/
def takeShort (settings : Settings) (topic : Topic) : List Char → Except Refusal Settings
  | [] => .ok settings
  | c :: cs =>
    match topic.flags.find? (·.short? = some c) with
    | none => .error .unknownArgument
    | some flag =>
      match settings.take topic flag "" with
      | .error e => .error e
      | .ok settings => settings.takeShort topic cs

/-- Takes a word that is no option: the value that is still missing. -/
def takeWord (settings : Settings) (word : String) : Except Refusal Settings :=
  match settings.pending with
  | some (flag, none) => .ok { settings with pending := some (flag, some word) }
  | _ => .error .unknownArgument

/-- The value of an option. -/
def value? (settings : Settings) (flag : Flag) : Option String :=
  settings.given.lookup flag

/-- The option is given. -/
def has (settings : Settings) (flag : Flag) : Bool :=
  (settings.value? flag).isSome

end Settings

/-- The forms an argument can have. -/
inductive Argument where
  /-- Two dashes alone, after which nothing is an option. -/
  | escape
  | long (name : String) (value : Option String)
  | short (letters : List Char)
  | word (text : String)
  deriving DecidableEq, Repr

/-- The form of an argument. -/
def Argument.ofString (text : String) : Argument :=
  match text.toList with
  | ['-', '-'] => escape
  | '-' :: '-' :: cs =>
    long (String.ofList (cs.takeWhile (· != '=')))
      (match cs.dropWhile (· != '=') with
      | [] => none
      | _ :: value => some (String.ofList value))
  | '-' :: c :: cs => short (c :: cs)
  | _ => word text

/-- Reads the arguments of a subcommand. -/
def readSettings (topic : Topic) : Settings → List String → Except Refusal Settings
  | settings, [] => settings.settle
  | settings, text :: rest =>
    match Argument.ofString text with
    | .escape => if rest.isEmpty then settings.settle else .error .unknownArgument
    | .long name value => settings.takeLong topic name value >>= (readSettings topic · rest)
    | .short letters => settings.takeShort topic letters >>= (readSettings topic · rest)
    | .word text => settings.takeWord text >>= (readSettings topic · rest)

/-- The options of `run` that some settings give. -/
def Settings.runOptions (settings : Settings) : RunOptions where
  path := (settings.value? .path).map Path.mk
  verbose := settings.has .verbose
  table := settings.value? .table
  output := (settings.value? .output).map Path.mk
  catalog := (settings.value? .catalog).map Path.mk
  locale := settings.value? .locale
  force := settings.has .force

/-- The options of `scan` that some settings give. -/
def Settings.scanOptions (settings : Settings) : ScanOptions where
  path := (settings.value? .path).map Path.mk
  verbose := settings.has .verbose

/-- What `help` is asked about. -/
def readHelp : List String → Refusal
  | [] => .displayHelp .program
  | [word] =>
    match Topic.ofWord? word with
    | some topic => .displayHelp topic
    | none => .invalidSubcommand
  | _ => .invalidSubcommand

/-- Reads a command from its name and arguments. -/
def readCommand (topic : Topic) (arguments : List String) : Except Refusal Command :=
  match topic with
  | .run => (readSettings .run .empty arguments).map fun s => .run s.runOptions
  | .scan => (readSettings .scan .empty arguments).map fun s => .scan s.scanOptions
  | .init => (readSettings .init .empty arguments).map fun _ => .init
  | .help => .error (readHelp arguments)
  | .program => .error .invalidSubcommand

/-- Reads the arguments of the program. Without any there is no command. -/
def read : List String → Except Refusal (Option Command)
  | [] => .ok none
  | text :: rest =>
    match Topic.ofWord? text, Argument.ofString text with
    | some topic, _ => (readCommand topic rest).map some
    | none, .escape =>
      match rest with
      | [] => .ok none
      | word :: _ =>
        .error (if (Topic.ofWord? word).isSome then .unknownArgument else .invalidSubcommand)
    | none, .long name value => (Settings.empty.takeLong .program name value).map fun _ => none
    | none, .short letters => (Settings.empty.takeShort .program letters).map fun _ => none
    | none, .word _ => .error .invalidSubcommand

end CommandLine

end Phrasebook
