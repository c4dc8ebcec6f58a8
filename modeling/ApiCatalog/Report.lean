import ApiCatalog.Analysis
import ApiCatalog.Json.Printer
import ApiCatalog.PathIndex.Walk

set_option autoImplicit false

/-!
# Reports

What an analysis has found as JSON. The members of an object stand in a fixed order, those that
name models, properties or segments in the order of their registration.

## Main definitions

* `Report.model`, `Report.endpoint`, `Report.paths`, `Report.diagnostic`, `Report.statistics`: the
  parts of a report.
* `Report.analysis`: a whole report.
-/

namespace ApiCatalog.Report

/-- A map as an object, each value being written in the way given. -/
def mapping {κ ν : Type} (name : κ → String) (value : ν → Json) (map : OrderedMap κ ν) : Json :=
  .object (map.entries.map fun entry => (name entry.1, value entry.2))

/-- A property of an object model. -/
def property (property : Property) : Json :=
  .object [("name", .string property.name), ("references", .texts property.references),
    ("modifier", .string property.modifier.label)]

/-- The members that a model has in a report, besides the one that tells its kind. -/
def modelMembers : Model → List (String × Json)
  | .primitive kind => [("kind", .string kind.label)]
  | .enumeration name values nullable =>
    [("name", .string name), ("values", .texts values), ("nullable", .bool nullable)]
  | .object name properties =>
    [("name", .string name), ("properties", mapping id property properties)]
  | .array name items => [("name", .string name), ("item_references", .texts items)]
  | .composition name kind members =>
    [("name", .string name), ("kind", .string kind.label), ("members", .texts members)]

/-- A model. -/
def model (model : Model) : Json :=
  .object (("model", .string model.kind.label) :: modelMembers model)

/-- The models of a repository, by name. -/
def models (repository : Repository) : Json :=
  .object (repository.models.map fun entry => (entry.name, model entry))

/-- A parameter of an endpoint. -/
def parameter (parameter : EndpointParameter) : Json :=
  .object [("name", .string parameter.name), ("schema", .string parameter.schema),
    ("location", .string parameter.location.label),
    ("modifier", .string parameter.modifier.label)]

/-- A response of an endpoint. -/
def response (response : EndpointResponse) : Json :=
  .object [("status", .string response.status.text),
    ("schemas", mapping id .string response.schemas)]

/-- An endpoint. -/
def endpoint (endpoint : Endpoint) : Json :=
  .object [("method", .string endpoint.method.name),
    ("parameters", mapping id parameter endpoint.parameters),
    ("request_bodies", mapping id .string endpoint.requestBodies),
    ("responses", mapping StatusKey.text response endpoint.responses)]

/-- The members of a node in a report, its children excepted. -/
def partMembers (part : PathPart) : List (String × Json) :=
  [("segment", .string part.segment), ("kind", .string part.kind.segmentKind.label)] ++
    (part.schema?.map fun schema => ("model_ref", .string schema)).toList ++
    (part.endpoints.map fun endpoints =>
      ("endpoints", mapping HttpMethod.name endpoint endpoints)).toList

mutual

/-- A tree of nodes. -/
def pathTree (index : PathIndex) : PathTree → Json
  | .node id children =>
    .object ((((index.part? id).map partMembers).getD []) ++
      if children.isEmpty then [] else [("children", .object (pathTrees index children))])

/-- Trees of nodes, by segment. -/
def pathTrees (index : PathIndex) : List PathTree → List (String × Json)
  | [] => []
  | .node id children :: rest =>
    (index.segment id, pathTree index (.node id children)) :: pathTrees index rest

end

/-- The nodes of a path index as nested objects. -/
def paths (index : PathIndex) : Json :=
  pathTree index (index.tree PathIndex.root)

/-- What names of schemas stand for. -/
def bindings (bindings : Bindings) : Json :=
  mapping id Json.texts bindings

/-- A diagnostic. -/
def diagnostic (diagnostic : Diagnostic) : Json :=
  .object [("kind", .string diagnostic.kind.key), ("message", .string diagnostic.message)]

/-- Statistics. -/
def statistics (statistics : Statistics) : Json :=
  .object [("models_registered", .ofNat statistics.modelsRegistered),
    ("primitives", .ofNat statistics.primitives), ("enums", .ofNat statistics.enumerations),
    ("objects", .ofNat statistics.objects), ("arrays", .ofNat statistics.arrays),
    ("compositions", .ofNat statistics.compositions),
    ("path_parts", .ofNat statistics.pathParts), ("endpoints", .ofNat statistics.endpoints),
    ("parameters", .ofNat statistics.parameters),
    ("request_bodies", .ofNat statistics.requestBodies),
    ("responses", .ofNat statistics.responses),
    ("cycles_detected", .ofNat statistics.cyclesDetected),
    ("cycle_details", .array (statistics.cycleDetails.map Json.texts)),
    ("dangling_references", .ofNat statistics.danglingReferences),
    ("structural_diagnostics", .ofNat statistics.structuralDiagnostics),
    ("schema_diagnostics", .ofNat statistics.schemaDiagnostics)]

/-- A whole analysis. -/
def analysis (analysis : Analysis) : Json :=
  .object [("models", models analysis.models), ("paths", paths analysis.paths),
    ("bindings", bindings analysis.bindings),
    ("diagnostics", .array (analysis.diagnostics.map diagnostic)),
    ("stats", statistics analysis.statistics)]

end ApiCatalog.Report
