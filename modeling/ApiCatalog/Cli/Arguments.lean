set_option autoImplicit false

/-!
# Command-line arguments

The command line is a sequence of levels: the program, then a subcommand, then possibly a
subcommand of that. Each level knows options with a value and switches; the options for colours are
known at all of them, and the innermost use of one counts.

## Main definitions

* `Cli.Level`, `Cli.Opt`, `Cli.Switch`: what may be written where.
* `Cli.UsageError`: why a command line is not run.
* `Cli.Arguments`: what a command line asks for.
* `Cli.parse`: the reading of a command line.
-/

namespace ApiCatalog.Cli

/-- When output is coloured. -/
inductive ColorMode where
  | always
  | auto
  | never
deriving DecidableEq, Repr

/-- The mode of a word. -/
def ColorMode.ofWord? : String → Option ColorMode
  | "always" => some .always
  | "auto" => some .auto
  | "never" => some .never
  | _ => none

/-- What background colours are chosen for. -/
inductive ThemeMode where
  | dark
  | light
  | auto
deriving DecidableEq, Repr

/-- The mode of a word. -/
def ThemeMode.ofWord? : String → Option ThemeMode
  | "dark" => some .dark
  | "light" => some .light
  | "auto" => some .auto
  | _ => none

/-- A level of the command line. -/
inductive Level where
  | program
  | list
  | listModels
  | listPaths
  | analyze
deriving DecidableEq, Repr

/-- An option that takes a value. -/
inductive Opt where
  | color
  | theme
  | input
  | output
  | config
deriving DecidableEq, Repr

/-- An option without a value. -/
inductive Switch where
  | help
  | version
  | verbose
  | quiet
deriving DecidableEq, Repr

/-- Either kind of option. -/
inductive Flag where
  | opt (opt : Opt)
  | switch (switch : Switch)
deriving DecidableEq, Repr

/-- Why a command line is not run. -/
inductive UsageError where
  | displayHelp
  | displayVersion
  | displayHelpOnMissingArgumentOrSubcommand
  | missingSubcommand
  | invalidSubcommand
  | unknownArgument
  | invalidValue
  | tooManyValues
  | argumentConflict
  | missingRequiredArgument
deriving DecidableEq, Repr

namespace UsageError

/-- The name of a reason. -/
def label : UsageError → String
  | .displayHelp => "DisplayHelp"
  | .displayVersion => "DisplayVersion"
  | .displayHelpOnMissingArgumentOrSubcommand => "DisplayHelpOnMissingArgumentOrSubcommand"
  | .missingSubcommand => "MissingSubcommand"
  | .invalidSubcommand => "InvalidSubcommand"
  | .unknownArgument => "UnknownArgument"
  | .invalidValue => "InvalidValue"
  | .tooManyValues => "TooManyValues"
  | .argumentConflict => "ArgumentConflict"
  | .missingRequiredArgument => "MissingRequiredArgument"

/-- Help and version were asked for; everything else is a mistake. -/
def exitCode : UsageError → Nat
  | .displayHelp => 0
  | .displayVersion => 0
  | _ => 2

end UsageError

/-- What a complete analysis is asked to do. -/
structure AnalyzeArguments where
  input : Option String := none
  output : Option String := none
  config : Option String := none
  verbose : Bool := false
  quiet : Bool := false
deriving DecidableEq, Repr

/-- What the program is asked to do. -/
inductive Command where
  | listModels (input : String)
  | listPaths (input : String)
  | analyze (arguments : AnalyzeArguments)
deriving DecidableEq, Repr

/-- What a command line asks for. -/
structure Arguments where
  command : Command
  color : Option ColorMode := none
  theme : Option ThemeMode := none
deriving DecidableEq, Repr

namespace Level

/-- The subcommands of a level, by name. -/
def subcommands : Level → List (String × Level)
  | .program => [("list", .list), ("analyze", .analyze)]
  | .list => [("models", .listModels), ("paths", .listPaths)]
  | _ => []

/-- The subcommand of a name. -/
def subcommand? (level : Level) (name : String) : Option Level :=
  (level.subcommands.find? fun entry => entry.1 = name).map Prod.snd

/-- Whether a level has subcommands, and with them one that gives help. -/
def branches (level : Level) : Bool :=
  !level.subcommands.isEmpty

/-- The options of a level: long name, letter if there is one, and what it is. -/
def flags (level : Level) : List (String × Option Char × Flag) :=
  let shared := [("color", none, Flag.opt .color), ("theme", none, .opt .theme),
    ("help", some 'h', .switch .help)]
  let input := [("input", some 'i', Flag.opt .input)]
  match level with
  | .program => ("version", some 'V', .switch .version) :: shared
  | .list => shared
  | .listModels => shared ++ input
  | .listPaths => shared ++ input
  | .analyze => shared ++ input ++ [("output", some 'o', .opt .output),
      ("config", some 'c', .opt .config), ("verbose", some 'v', .switch .verbose),
      ("quiet", some 'q', .switch .quiet)]

/-- The option of a long name. -/
def longFlag? (level : Level) (name : List Char) : Option Flag :=
  (level.flags.find? fun entry => entry.1.toList = name).map fun entry => entry.2.2

/-- The option of a letter. -/
def shortFlag? (level : Level) (letter : Char) : Option Flag :=
  (level.flags.find? fun entry => entry.2.1 = some letter).map fun entry => entry.2.2

end Level

/-- Whether an option accepts a value. -/
def Opt.accepts : Opt → String → Bool
  | .color, value => (ColorMode.ofWord? value).isSome
  | .theme, value => (ThemeMode.ofWord? value).isSome
  | _, value => !value.isEmpty

/-- What has been read at a level: options with their values, and switches. -/
structure Seen where
  values : List (Opt × String) := []
  switches : List Switch := []
deriving DecidableEq, Repr

namespace Seen

/-- The value of an option. -/
def value? (seen : Seen) (opt : Opt) : Option String :=
  (seen.values.find? fun entry => entry.1 = opt).map Prod.snd

/-- Takes up an option with its value. -/
def addValue (seen : Seen) (opt : Opt) (value : String) : Except UsageError Seen :=
  if (seen.value? opt).isSome then .error .argumentConflict
  else if opt.accepts value then .ok { seen with values := (opt, value) :: seen.values }
  else .error .invalidValue

/-- Takes up a switch; help and version end the reading. -/
def addSwitch (seen : Seen) : Switch → Except UsageError Seen
  | .help => .error .displayHelp
  | .version => .error .displayVersion
  | switch =>
    if seen.switches.contains switch then .error .argumentConflict
    else .ok { seen with switches := switch :: seen.switches }

/-- Whether nothing has been read. -/
def isEmpty (seen : Seen) : Bool :=
  seen.values.isEmpty && seen.switches.isEmpty

end Seen

/-- An option whose value is still to be taken up: it may have come in a separate argument, or not
at all yet. -/
structure Pending where
  opt : Opt
  value : Option String
deriving DecidableEq, Repr

/-- How far the arguments of a level have been read. A value in a separate argument is taken up
only when the next option comes, or at the end. -/
structure Progress where
  seen : Seen := {}
  pending : Option Pending := none
deriving DecidableEq, Repr

namespace Progress

/-- Takes up the pending option. -/
def settle (progress : Progress) : Except UsageError Seen :=
  match progress.pending with
  | none => .ok progress.seen
  | some ⟨_, none⟩ => .error .invalidValue
  | some ⟨opt, some value⟩ => progress.seen.addValue opt value

/-- The option that waits for its value in the next argument. -/
def awaiting? (progress : Progress) : Option Opt :=
  match progress.pending with
  | some ⟨opt, none⟩ => some opt
  | _ => none

/-- Takes up a switch. -/
def addSwitch (progress : Progress) (switch : Switch) : Except UsageError Progress := do
  let seen ← progress.settle
  let seen ← seen.addSwitch switch
  return { seen }

/-- Takes up an option with a value that is attached to it. -/
def addAttached (progress : Progress) (opt : Opt) (value : String) :
    Except UsageError Progress := do
  let seen ← progress.settle
  let seen ← seen.addValue opt value
  return { seen }

/-- Takes up an option whose value comes in the next argument. -/
def await (progress : Progress) (opt : Opt) : Except UsageError Progress := do
  let seen ← progress.settle
  return { seen, pending := some ⟨opt, none⟩ }

/-- Reads an argument after its two dashes. -/
def readLong (progress : Progress) (level : Level) (text : List Char) :
    Except UsageError Progress :=
  let name := text.takeWhile (· ≠ '=')
  let attached := text.dropWhile (· ≠ '=')
  match level.longFlag? name with
  | none => .error .unknownArgument
  | some (.switch switch) =>
    if attached.isEmpty then progress.addSwitch switch else .error .tooManyValues
  | some (.opt opt) =>
    match attached with
    | [] => progress.await opt
    | _ :: value => progress.addAttached opt (String.ofList value)

/-- Reads an argument after its single dash: a cluster of letters, the last of which may take the
rest as its value. -/
def readShort (progress : Progress) (level : Level) : List Char → Except UsageError Progress
  | [] => .ok progress
  | letter :: rest =>
    match level.shortFlag? letter with
    | none => .error .unknownArgument
    | some (.switch switch) => do
      let progress ← progress.addSwitch switch
      progress.readShort level rest
    | some (.opt opt) =>
      match rest with
      | [] => progress.await opt
      | '=' :: value => progress.addAttached opt (String.ofList value)
      | value => progress.addAttached opt (String.ofList value)

end Progress

/-- Why an argument that is neither an option nor its value is refused. -/
def refusePositional (level : Level) (afterDashes : Bool) (argument : String) : UsageError :=
  if !level.branches then .unknownArgument
  else if afterDashes && (argument = "help" || (level.subcommand? argument).isSome) then
    .unknownArgument
  else .invalidSubcommand

/-- The level that the names after `help` lead to. -/
def helpTopic (level : Level) : List String → UsageError
  | [] => .displayHelp
  | name :: rest =>
    match level.subcommand? name with
    | some inner => helpTopic inner rest
    | none =>
      if level.branches && name = "help" && rest.isEmpty then .displayHelp else .invalidSubcommand

/-- What the options of a level ask for when no subcommand follows. -/
def finish (level : Level) (seen : Seen) : Except UsageError Command :=
  let missing : UsageError :=
    if seen.isEmpty then .displayHelpOnMissingArgumentOrSubcommand else .missingSubcommand
  match level with
  | .program => .error missing
  | .list => .error missing
  | .listModels =>
    match seen.value? .input with
    | some input => .ok (.listModels input)
    | none => .error .missingRequiredArgument
  | .listPaths =>
    match seen.value? .input with
    | some input => .ok (.listPaths input)
    | none => .error .missingRequiredArgument
  | .analyze =>
    let verbose := seen.switches.contains .verbose
    let quiet := seen.switches.contains .quiet
    if verbose && quiet then .error .argumentConflict
    else .ok (.analyze {
      input := seen.value? .input
      output := seen.value? .output
      config := seen.value? .config
      verbose, quiet })

/-- Adds the colour options of a level to what its subcommand asks for. -/
def Arguments.inherit (arguments : Arguments) (seen : Seen) : Arguments :=
  { arguments with
    color := arguments.color.orElse fun _ => (seen.value? .color).bind ColorMode.ofWord?
    theme := arguments.theme.orElse fun _ => (seen.value? .theme).bind ThemeMode.ofWord? }

/-- Reads the arguments of a level. -/
def parseLevel (level : Level) : List String → Progress → Except UsageError Arguments
  | [], progress => do
    let seen ← progress.settle
    let command ← finish level seen
    return Arguments.inherit { command } seen
  | argument :: rest, progress =>
    let awaiting := progress.awaiting?
    if awaiting.isNone && level.branches && argument = "help" then
      .error (helpTopic level rest)
    else match (if awaiting.isNone then level.subcommand? argument else none) with
    | some inner => do
      let arguments ← parseLevel inner rest {}
      let seen ← progress.settle
      return arguments.inherit seen
    | none =>
      match argument.toList with
      | ['-', '-'] =>
        match rest with
        | [] => do
          let seen ← progress.settle
          let command ← finish level seen
          return Arguments.inherit { command } seen
        | next :: _ => .error (refusePositional level true next)
      | '-' :: '-' :: text => do
        let progress ← progress.readLong level text
        parseLevel level rest progress
      | '-' :: letter :: letters => do
        let progress ← progress.readShort level (letter :: letters)
        parseLevel level rest progress
      | _ =>
        match awaiting with
        | some opt => parseLevel level rest { progress with pending := some ⟨opt, some argument⟩ }
        | none => .error (refusePositional level false argument)

/-- What a command line asks for. -/
def parse (arguments : List String) : Except UsageError Arguments :=
  parseLevel .program arguments {}

end ApiCatalog.Cli
