import ApiCatalog.Extraction.Paths
import ApiCatalog.Statistics

set_option autoImplicit false

/-!
# Analysis of a document

A whole extraction: first the paths, whose schemas claim the names of their places, then the
component schemas that no path led to; and the account of what was found.

## Main definitions

* `ApiCatalog.Options`: whether components are included, and when the extraction is cancelled.
* `ApiCatalog.extract`: the state at the end of the passes.
* `ApiCatalog.analyze`: the account of a run that was not cancelled.
-/

namespace ApiCatalog

/-- How a document is to be analysed. -/
structure Options where
  /-- Whether component schemas are resolved that no path led to. -/
  includeComponents : Bool := true
  /-- Whether the extraction is cancelled before it begins. -/
  cancelled : Bool := false
  /-- The number of models at whose registration the extraction is cancelled. -/
  cancelAt : Option Nat := none
deriving DecidableEq, Repr

/-- What an analysis has found. -/
structure Analysis where
  models : Repository
  paths : PathIndex
  bindings : Bindings
  diagnostics : List Diagnostic
  statistics : Statistics
deriving DecidableEq

namespace Analysis

/-- Whether no problem was met at all. -/
def succeeded (analysis : Analysis) : Bool :=
  analysis.diagnostics.isEmpty

/-- The problems of the paths' structure. -/
def structuralDiagnostics (analysis : Analysis) : List Diagnostic :=
  analysis.diagnostics.filter Diagnostic.isStructural

/-- The problems of schemas. -/
def schemaDiagnostics (analysis : Analysis) : List Diagnostic :=
  analysis.diagnostics.filter fun diagnostic => !diagnostic.isStructural

/-- The account of the state at the end of an extraction. -/
def ofState (state : ExtractionState) : Analysis where
  models := state.resolver.repository
  paths := state.index
  bindings := state.bindings
  diagnostics := state.resolver.diagnostics
  statistics := .collect state.resolver.repository state.index state.bindings
    state.resolver.diagnostics

end Analysis

/-- Why an analysis has no result. -/
inductive AnalysisError where
  | cancelled
  | aborted (abort : Abort)
deriving DecidableEq, Repr

/-- The wording of a missing result. -/
def AnalysisError.message : AnalysisError → String
  | .cancelled => "extraction was cancelled"
  | .aborted (.malformedReference path) => "malformed reference '" ++ path ++ "'"
  | .aborted (.endlessAlias path) => "reference '" ++ path ++ "' leads back to itself"
  | .aborted (.unknownPart id) => "no path part has the number " ++ toString id

/-- The passes over a document, first over its paths and then over its components. -/
def Extraction.passesWith (reactions : Reactions) (document : Document) (options : Options) :
    Extraction Unit := do
  let context : Context := ⟨document, options.cancelAt⟩
  extractPathsWith context reactions document.pathEntries
  if options.includeComponents then
    extractComponents context document.schemas.entries
  else pure ()

/-- The passes of an extraction. -/
def passes (document : Document) (options : Options) : Extraction Unit :=
  Extraction.passesWith .none document options

/-- The state in which an extraction begins. -/
def Options.initialState (options : Options) : ExtractionState :=
  { resolver := { cancelled := options.cancelled } }

/-- The state at the end of the passes over a document. -/
def extract (document : Document) (options : Options) : Except Abort ExtractionState :=
  match passes document options options.initialState with
  | .ok () state => .ok state
  | .error abort _ => .error abort

/-- Analyses a document. -/
def analyze (document : Document) (options : Options) : Except AnalysisError Analysis :=
  match extract document options with
  | .error abort => .error (.aborted abort)
  | .ok state =>
    if state.resolver.cancelled then .error .cancelled else .ok (.ofState state)

end ApiCatalog
