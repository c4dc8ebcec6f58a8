import ApiCatalog.Cli.Config
import ApiCatalog.Cli.Style
import ApiCatalog.Cli.Table
import ApiCatalog.Document.Load
import ApiCatalog.Report

set_option autoImplicit false

/-!
# Running commands

What the program does for each command, on a host that reads and writes files, prints lines and
knows the time. Nothing else is asked of the host, so that it may be a machine or a value.

## Main definitions

* `Cli.Host`: what a command needs from outside.
* `Cli.Failure`: why a command ends without success.
* `Cli.statisticsLines`: the lines about statistics.
* `Cli.run`: a command line, run.
-/

namespace ApiCatalog.Cli

/-- What a command needs from outside. -/
structure Host (m : Type → Type) where
  /-- The bytes of a file, if it can be read. -/
  contents : String → m (Option (List UInt8))
  /-- Writes a file, together with the directories it lies in; tells what stood in the way. -/
  save : String → String → m (Option String)
  /-- Prints a line. -/
  printLine : String → m Unit
  /-- Prints a line about a problem. -/
  printProblem : String → m Unit
  /-- The time of day, in brackets. -/
  clock : m String
  /-- What the terminal says about itself. -/
  terminal : Terminal

/-- Why a command ends without success. -/
inductive Failure where
  | missingInput
  | unreadableConfig (path : String)
  | invalidConfig (path : String)
  | load (error : LoadError)
  | analysis (error : AnalysisError)
  | unwritable (reason : String)
  | problems (count : Nat) (path : String)
deriving DecidableEq, Repr

/-- The wording of a failure. -/
def Failure.message : Failure → String
  | .missingInput => "Input path (-i) is required, either as a flag or in the config file"
  | .unreadableConfig path => "Failed to read config file '" ++ path ++ "'"
  | .invalidConfig path => "Invalid config file '" ++ path ++ "'"
  | .load error => error.message
  | .analysis error => error.message
  | .unwritable reason => reason
  | .problems count path =>
    "Extraction reported " ++ toString count ++ " diagnostic(s) in " ++ path

/-! ## Tables -/

/-- The models of an analysis with their kinds and references. -/
def modelTable (analysis : Analysis) : Table where
  columns := [⟨"MODEL", .left⟩, ⟨"KIND", .right⟩, ⟨"REFERENCES", .left⟩]
  rows := analysis.models.models.map fun model =>
    [model.name, model.kind.label, ", ".intercalate model.references]

/-- The row of a node that has endpoints. -/
def pathRow? (index : PathIndex) (entry : String × Nat) : Option (List String) := do
  let part ← index.part? entry.2
  let endpoints ← part.endpoints
  return [entry.1, " ".intercalate (endpoints.keys.map HttpMethod.name), part.schema?.getD ""]

/-- The templates of an analysis with their methods and parameter schemas. -/
def pathTable (analysis : Analysis) : Table where
  columns := [⟨"PATH", .left⟩, ⟨"METHODS", .left⟩, ⟨"PARAMETER SCHEMA", .left⟩]
  rows := analysis.paths.walk.filterMap (pathRow? analysis.paths)

/-! ## Statistics -/

/-- A figure with its label, which is empty for a part of the figure before. -/
def statLine (palette : Palette) (label value : String) : String :=
  Table.repeated ' ' 12 ++ paint palette.label label ++ " " ++ paint palette.value value

/-- The members of cycles, one cycle a line, numbered from `number` on. -/
def cycleLines (palette : Palette) : Nat → List (List ModelName) → List String
  | _, [] => []
  | number, cycle :: rest =>
    (Table.repeated ' ' 14 ++ paint palette.accent ("Cycle " ++ toString number) ++ ": " ++
      paint palette.primary (" -> ".intercalate cycle)) :: cycleLines palette (number + 1) rest

/-- The lines about statistics. -/
def statisticsLines (palette : Palette) (verbose : Bool) (statistics : Statistics) :
    List String :=
  let line := statLine palette
  let count (n : Nat) (word : String) : String := toString n ++ " " ++ word
  let problems := statistics.structuralDiagnostics + statistics.schemaDiagnostics
  [line "Models registered:" (toString statistics.modelsRegistered),
    line "" (count statistics.primitives "primitives"),
    line "" (count statistics.objects "objects"),
    line "" (count statistics.arrays "arrays"),
    line "" (count statistics.enumerations "enums"),
    line "" (count statistics.compositions "compositions"),
    line "Path nodes:" (toString statistics.pathParts),
    line "Endpoints:" (toString statistics.endpoints),
    line "" (count statistics.parameters "parameters" ++ ", " ++
      count statistics.requestBodies "request bodies" ++ ", " ++
      count statistics.responses "responses")] ++
  (if 0 < statistics.danglingReferences then
    [line "Dangling references:" (toString statistics.danglingReferences)] else []) ++
  (if 0 < statistics.cyclesDetected then
    line "Cycles:" (toString statistics.cyclesDetected) ::
      (if verbose then cycleLines palette 1 statistics.cycleDetails else []) else []) ++
  if 0 < problems then
    [line "Diagnostics:" (toString problems ++ " (" ++
      count statistics.structuralDiagnostics "structural" ++ ", " ++
      count statistics.schemaDiagnostics "schema" ++ ")")] else []

/-- The diagnostics that are shown: those about schemas only on demand. -/
def shownDiagnostics (verbose : Bool) (diagnostics : List Diagnostic) : List Diagnostic :=
  diagnostics.filter fun diagnostic => diagnostic.isStructural || verbose

/-- The line about a diagnostic. -/
def diagnosticLine (palette : Palette) (diagnostic : Diagnostic) : String :=
  paint (palette.diagnostic diagnostic.kind) ("[" ++ diagnostic.kind.label ++ "]") ++ " " ++
    paint palette.primary diagnostic.message

/-! ## Commands -/

variable {m : Type → Type} [Monad m] (host : Host m)

/-- Does something with each member of a list, in order. -/
def forEach {α : Type} (action : α → m Unit) : List α → m Unit
  | [] => pure ()
  | a :: rest => do
    action a
    forEach action rest

/-- Reads a document from a file. -/
def loadDocument (path : String) : m (Except LoadError Document) := do
  match ← host.contents path with
  | none => return .error (.unreadable path)
  | some bytes => return Document.ofBytes (.ofPath path) bytes

/-- Prints a table made from the analysis of a file. -/
def runList (input : String) (table : Analysis → Table) : m (Except Failure Unit) := do
  match ← loadDocument host input with
  | .error error => return .error (.load error)
  | .ok document =>
    match analyze document {} with
    | .error error => return .error (.analysis error)
    | .ok analysis =>
      forEach host.printLine (table analysis).render
      return .ok ()

/-- The settings of the configuration file, if one is named. -/
def loadConfig (path : Option String) : m (Except Failure Config) := do
  match path with
  | none => return .ok {}
  | some path =>
    match (← host.contents path).map Text.decodeUtf8 with
    | some (.ok text) =>
      match Config.ofText? text with
      | some config => return .ok config
      | none => return .error (.invalidConfig path)
    | _ => return .error (.unreadableConfig path)

/-- Prints a line after the time of day, unless output is to be kept quiet. -/
def inform (palette : Palette) (quiet : Bool) (color : Color) (message : String) : m Unit := do
  if quiet then pure ()
  else
    let time ← host.clock
    host.printLine (paint palette.timestamp time ++ " " ++ paint color message)

/-- Prints what an analysis has found. -/
def printFindings (palette : Palette) (arguments : AnalyzeArguments) (analysis : Analysis) :
    m Unit := do
  if arguments.quiet then pure ()
  else
    forEach host.printLine (statisticsLines palette arguments.verbose analysis.statistics)
    let shown := shownDiagnostics arguments.verbose analysis.diagnostics
    if shown.isEmpty then pure () else host.printLine ""
    forEach (fun diagnostic => host.printProblem (diagnosticLine palette diagnostic)) shown

/-- Writes the report of an analysis, if that is asked for; tells whether it could be written. -/
def writeReport (palette : Palette) (quiet : Bool) (output : Option String)
    (analysis : Analysis) : m (Except Failure Unit) := do
  match output with
  | none => return .ok ()
  | some path =>
    match ← host.save path (Report.analysis analysis).indented with
    | some reason => return .error (.unwritable reason)
    | none =>
      inform host palette quiet palette.primary ("Wrote models and paths to: " ++ path)
      return .ok ()

/-- The end of a complete analysis: success only if there were no problems at all. -/
def conclude (palette : Palette) (quiet : Bool) (input : String) (analysis : Analysis) :
    m (Except Failure Unit) := do
  if analysis.succeeded then
    if quiet then pure () else host.printLine ""
    inform host palette quiet palette.success "Extraction completed without diagnostics"
    return .ok ()
  else return .error (.problems analysis.diagnostics.length input)

/-- Analyses a file and prints and writes what was found. -/
def analyzeFile (palette : Palette) (arguments : AnalyzeArguments) (input : String)
    (output : Option String) : m (Except Failure Unit) := do
  inform host palette arguments.quiet palette.primary
    ("Loading OpenAPI document from: " ++ input)
  match ← loadDocument host input with
  | .error error => return .error (.load error)
  | .ok document =>
    inform host palette arguments.quiet palette.primary "Extracting models and endpoints..."
    match analyze document {} with
    | .error error => return .error (.analysis error)
    | .ok analysis =>
      printFindings host palette arguments analysis
      match ← writeReport host palette arguments.quiet output analysis with
      | .error failure => return .error failure
      | .ok () => conclude host palette arguments.quiet input analysis

/-- Runs a complete analysis. What the command line says goes before the configuration file. -/
def runAnalyze (palette : Palette) (arguments : AnalyzeArguments) : m (Except Failure Unit) := do
  match ← loadConfig host arguments.config with
  | .error failure => return .error failure
  | .ok config =>
    match arguments.input.orElse fun _ => config.input with
    | none => return .error .missingInput
    | some input =>
      analyzeFile host palette arguments input (arguments.output.orElse fun _ => config.output)

/-- Runs what a command line asks for. -/
def runArguments (arguments : Arguments) : m (Except Failure Unit) :=
  match arguments.command with
  | .listModels input => runList host input modelTable
  | .listPaths input => runList host input pathTable
  | .analyze analyzeArguments =>
    runAnalyze host (choosePalette host.terminal arguments) analyzeArguments

/-- Runs a command line. -/
def run (arguments : List String) : m (Except UsageError (Except Failure Unit)) := do
  match parse arguments with
  | .error error => return .error error
  | .ok arguments => return .ok (← runArguments host arguments)

/-- The directories that a file lies in. -/
def directory? (path : String) : Option String :=
  let parent := (path.toList.reverse.dropWhile (· ≠ '/')).drop 1
  if parent.isEmpty then none else some (String.ofList parent.reverse)

end ApiCatalog.Cli
