import ApiCatalog.Diagnostic
import ApiCatalog.Graph

set_option autoImplicit false

/-!
# Statistics

Counts of what an extraction found.

## Main definitions

* `ApiCatalog.Statistics`: the counts, all zero to begin with.
* `Statistics.recordModel`, `Statistics.recordEndpoint`, `Statistics.recordPaths`,
  `Statistics.recordCycle`, `Statistics.recordDangling`, `Statistics.recordDiagnostic`: counting.
* `Statistics.collect`: the counts of a whole extraction.
-/

namespace ApiCatalog

/-- Counts of what an extraction found. -/
structure Statistics where
  modelsRegistered : Nat := 0
  primitives : Nat := 0
  enumerations : Nat := 0
  objects : Nat := 0
  arrays : Nat := 0
  compositions : Nat := 0
  pathParts : Nat := 0
  endpoints : Nat := 0
  parameters : Nat := 0
  requestBodies : Nat := 0
  responses : Nat := 0
  cyclesDetected : Nat := 0
  cycleDetails : List (List ModelName) := []
  danglingReferences : Nat := 0
  structuralDiagnostics : Nat := 0
  schemaDiagnostics : Nat := 0
deriving DecidableEq, Repr

namespace Statistics

/-- Counts a model, in all and by its kind. -/
def recordModel (statistics : Statistics) (model : Model) : Statistics :=
  let counted := { statistics with modelsRegistered := statistics.modelsRegistered + 1 }
  match model.kind with
  | .primitive => { counted with primitives := counted.primitives + 1 }
  | .enumeration => { counted with enumerations := counted.enumerations + 1 }
  | .object => { counted with objects := counted.objects + 1 }
  | .array => { counted with arrays := counted.arrays + 1 }
  | .composition => { counted with compositions := counted.compositions + 1 }

/-- Counts an endpoint and what it declares. -/
def recordEndpoint (statistics : Statistics) (endpoint : Endpoint) : Statistics :=
  { statistics with
    endpoints := statistics.endpoints + 1
    parameters := statistics.parameters + endpoint.parameters.size
    requestBodies := statistics.requestBodies + endpoint.requestBodies.size
    responses := statistics.responses + endpoint.responses.size }

/-- Takes the number of nodes of an index and counts its endpoints. -/
def recordPaths (statistics : Statistics) (index : PathIndex) : Statistics :=
  index.endpoints.foldl recordEndpoint { statistics with pathParts := index.size }

/-- Counts a cycle and keeps its members. -/
def recordCycle (statistics : Statistics) (cycle : List ModelName) : Statistics :=
  { statistics with
    cyclesDetected := statistics.cyclesDetected + 1
    cycleDetails := statistics.cycleDetails ++ [cycle] }

/-- Counts dangling references. -/
def recordDangling (statistics : Statistics) (references : List DanglingReference) : Statistics :=
  { statistics with danglingReferences := statistics.danglingReferences + references.length }

/-- Counts a diagnostic by its kind. -/
def recordDiagnostic (statistics : Statistics) (diagnostic : Diagnostic) : Statistics :=
  if diagnostic.isStructural then
    { statistics with structuralDiagnostics := statistics.structuralDiagnostics + 1 }
  else { statistics with schemaDiagnostics := statistics.schemaDiagnostics + 1 }

/-- The counts of a whole extraction. -/
def collect (repository : Repository) (index : PathIndex) (bindings : Bindings)
    (diagnostics : List Diagnostic) : Statistics :=
  let graph := ModelGraph.build repository bindings
  let cyclic := graph.cycles.foldl recordCycle ({} : Statistics)
  let linked := cyclic.recordDangling graph.dangling
  let modelled := repository.models.foldl recordModel linked
  diagnostics.foldl recordDiagnostic (modelled.recordPaths index)

end Statistics

end ApiCatalog
