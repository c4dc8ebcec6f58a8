import ApiCatalog.PathIndex.Basic

set_option autoImplicit false

/-!
# Diagnostics

A problem of a document that extraction survives: the path, operation or schema concerned is left
out and the rest goes on.

## Main definitions

* `ApiCatalog.Diagnostic`: the problems.
* `Diagnostic.kind`: whether the structure of the paths or a schema is concerned.
* `Diagnostic.message`: the wording.
-/

namespace ApiCatalog

/-- What a diagnostic is about. -/
inductive DiagnosticKind where
  | structuralPath
  | schemaResolution
deriving DecidableEq, Repr

namespace DiagnosticKind

/-- The word for a kind on a terminal. -/
def label : DiagnosticKind → String
  | .structuralPath => "structural"
  | .schemaResolution => "schema"

/-- The word for a kind in a report. -/
def key : DiagnosticKind → String
  | .structuralPath => "structural_path"
  | .schemaResolution => "schema_resolution"

end DiagnosticKind

/-- A problem of a document that extraction survives. -/
inductive Diagnostic where
  | segmentKindMismatch (path segment : String) (existing : SegmentKind)
  | duplicateParameterSegment (path segment : String)
  | duplicateMethod (path : String) (method : HttpMethod)
  | unsupportedMethod (path method : String)
  | unboundPathParameter (path : String) (method : HttpMethod) (parameter : String)
  | invalidStatusKey (path : String) (method : HttpMethod) (status : String)
  | unnamedParameter (path : String) (index : Nat)
  | parameterWithoutSchema (path parameter : String)
  | missingType (hint : ModelName)
  | booleanSchema (hint : ModelName)
  | missingArrayItems (hint : ModelName)
  | unresolvedReference (hint reference error : String)
deriving DecidableEq, Repr

namespace Diagnostic

/-- What a diagnostic is about. -/
def kind : Diagnostic → DiagnosticKind
  | .segmentKindMismatch .. => .structuralPath
  | .duplicateParameterSegment .. => .structuralPath
  | .duplicateMethod .. => .structuralPath
  | .unsupportedMethod .. => .structuralPath
  | .unboundPathParameter .. => .structuralPath
  | .invalidStatusKey .. => .structuralPath
  | .unnamedParameter .. => .schemaResolution
  | .parameterWithoutSchema .. => .schemaResolution
  | .missingType .. => .schemaResolution
  | .booleanSchema .. => .schemaResolution
  | .missingArrayItems .. => .schemaResolution
  | .unresolvedReference .. => .schemaResolution

/-- Whether the structure of the paths is concerned. -/
def isStructural (diagnostic : Diagnostic) : Bool :=
  diagnostic.kind = .structuralPath

/-- How a message names an operation. -/
def operationLabel (method : HttpMethod) (path : String) : String :=
  "[" ++ method.name ++ " " ++ path ++ "]"

/-- The wording of a diagnostic. -/
def message : Diagnostic → String
  | .segmentKindMismatch path segment existing =>
    "Path '" ++ path ++ "': segment '" ++ segment ++ "' already exists as a " ++ existing.label ++
      " segment"
  | .duplicateParameterSegment path segment =>
    "Path '" ++ path ++ "': parameter segment '" ++ segment ++ "' appears more than once"
  | .duplicateMethod path method =>
    "Path '" ++ path ++ "': method " ++ method.name ++ " is already defined for this path"
  | .unsupportedMethod path method => "Path '" ++ path ++ "': unsupported method " ++ method
  | .unboundPathParameter path method parameter =>
    operationLabel method path ++ " path parameter '" ++ parameter ++ "' has no matching segment"
  | .invalidStatusKey path method status =>
    operationLabel method path ++ " invalid response status key '" ++ status ++ "'"
  | .unnamedParameter path index =>
    "Path '" ++ path ++ "': parameter #" ++ toString index ++ " has no name"
  | .parameterWithoutSchema path parameter =>
    "Path '" ++ path ++ "': parameter '" ++ parameter ++ "' declares no schema"
  | .missingType hint => "Schema '" ++ hint ++ "' has no type"
  | .booleanSchema hint => "Schema '" ++ hint ++ "' is a boolean schema"
  | .missingArrayItems hint => "Array schema '" ++ hint ++ "' has no items"
  | .unresolvedReference hint reference error =>
    "Failed to resolve reference '" ++ reference ++ "' for '" ++ hint ++ "': " ++ error

end Diagnostic

end ApiCatalog
