import ApiCatalog.Proofs.Analysis.Bindings
import ApiCatalog.Proofs.Extraction.Refusals
import ApiCatalog.Proofs.Extraction.Segments
import ApiCatalog.Proofs.Graph.Cycles
import ApiCatalog.Proofs.Report.Paths
import Mathlib.Algebra.BigOperators.Group.List.Basic
import Mathlib.Algebra.Ring.Nat

set_option autoImplicit false

/-!
# Statistics of an analysis

The counters are kept by folds over the models, the numbered nodes, the cycles and the diagnostics.
Here each fold is turned into sums, and the statistics of an analysis are compared with what it
holds: with its repository, with the walk of its index and the report of it, with the references
between its models, and with its diagnostics.

## Main definitions

* `Analysis.CountsModels`, `Analysis.CountsPaths`, `Analysis.CountsReferences`,
  `Analysis.CountsDiagnostics`: the statistics agree with what they summarise.

## Main results

* `Statistics.collect_eq`: all counters of an extraction.
* `ApiCatalog.statistics_of_analyze`: the statistics of an analysis agree with what they summarise.
-/

namespace ApiCatalog

/-! ## Folds as sums -/

namespace Statistics

/-- The counter of a kind of models. -/
def ofKind (statistics : Statistics) : ModelKind → Nat
  | .primitive => statistics.primitives
  | .enumeration => statistics.enumerations
  | .object => statistics.objects
  | .array => statistics.arrays
  | .composition => statistics.compositions

/-- The number of models of a kind. -/
def modelsOf (models : List Model) (kind : ModelKind) : Nat :=
  models.countP fun model => model.kind = kind

/-- A model adds one to the number of models, and to that of its kind. -/
theorem recordModel_eq (statistics : Statistics) (model : Model) :
    recordModel statistics model =
      { statistics with
        modelsRegistered := statistics.modelsRegistered + 1
        primitives := statistics.primitives + modelsOf [model] .primitive
        enumerations := statistics.enumerations + modelsOf [model] .enumeration
        objects := statistics.objects + modelsOf [model] .object
        arrays := statistics.arrays + modelsOf [model] .array
        compositions := statistics.compositions + modelsOf [model] .composition } := by
  unfold recordModel modelsOf
  cases hkind : model.kind <;> simp [hkind]

/-- One more model counts for its kind. -/
theorem modelsOf_cons (model : Model) (rest : List Model) (kind : ModelKind) :
    modelsOf (model :: rest) kind = modelsOf [model] kind + modelsOf rest kind := by
  unfold modelsOf
  rw [← List.singleton_append, List.countP_append]

/-- Models are counted in all and by their kinds. -/
theorem foldl_recordModel (models : List Model) (statistics : Statistics) :
    models.foldl recordModel statistics =
      { statistics with
        modelsRegistered := statistics.modelsRegistered + models.length
        primitives := statistics.primitives + modelsOf models .primitive
        enumerations := statistics.enumerations + modelsOf models .enumeration
        objects := statistics.objects + modelsOf models .object
        arrays := statistics.arrays + modelsOf models .array
        compositions := statistics.compositions + modelsOf models .composition } := by
  induction models generalizing statistics with
  | nil => rfl
  | cons model rest ih =>
    rw [List.foldl_cons, ih, recordModel_eq]
    simp only [modelsOf_cons model rest, List.length_cons, mk.injEq, and_true]
    omega

/-- Endpoints are counted together with what they declare. -/
theorem foldl_recordEndpoint (endpoints : List Endpoint) (statistics : Statistics) :
    endpoints.foldl recordEndpoint statistics =
      { statistics with
        endpoints := statistics.endpoints + endpoints.length
        parameters := statistics.parameters + (endpoints.map fun e => e.parameters.size).sum
        requestBodies :=
          statistics.requestBodies + (endpoints.map fun e => e.requestBodies.size).sum
        responses := statistics.responses + (endpoints.map fun e => e.responses.size).sum } := by
  induction endpoints generalizing statistics with
  | nil => rfl
  | cons endpoint rest ih =>
    rw [List.foldl_cons, ih, recordEndpoint]
    simp only [List.map_cons, List.sum_cons, List.length_cons, mk.injEq, and_true, true_and]
    omega

/-- Cycles are counted and kept. -/
theorem foldl_recordCycle (cycles : List (List ModelName)) (statistics : Statistics) :
    cycles.foldl recordCycle statistics =
      { statistics with
        cyclesDetected := statistics.cyclesDetected + cycles.length
        cycleDetails := statistics.cycleDetails ++ cycles } := by
  induction cycles generalizing statistics with
  | nil => simp
  | cons cycle rest ih =>
    rw [List.foldl_cons, ih, recordCycle]
    simp only [List.append_assoc, List.singleton_append, List.length_cons, mk.injEq, and_true,
      true_and]
    omega

/-- Diagnostics are counted by their kinds. -/
theorem foldl_recordDiagnostic (diagnostics : List Diagnostic) (statistics : Statistics) :
    diagnostics.foldl recordDiagnostic statistics =
      { statistics with
        structuralDiagnostics :=
          statistics.structuralDiagnostics + diagnostics.countP Diagnostic.isStructural
        schemaDiagnostics := statistics.schemaDiagnostics +
          diagnostics.countP fun diagnostic => !diagnostic.isStructural } := by
  induction diagnostics generalizing statistics with
  | nil => rfl
  | cons diagnostic rest ih =>
    rw [List.foldl_cons, ih, recordDiagnostic, List.countP_cons, List.countP_cons]
    split
    · next hstructural =>
      simp [hstructural]
      omega
    · next hstructural =>
      simp [hstructural]
      omega

variable (repository : Repository) (index : PathIndex) (bindings : Bindings)
  (diagnostics : List Diagnostic)

/-- **All counters of an extraction.** -/
theorem collect_eq :
    collect repository index bindings diagnostics =
      { modelsRegistered := repository.size
        primitives := modelsOf repository.models .primitive
        enumerations := modelsOf repository.models .enumeration
        objects := modelsOf repository.models .object
        arrays := modelsOf repository.models .array
        compositions := modelsOf repository.models .composition
        pathParts := index.size
        endpoints := index.endpoints.length
        parameters := (index.endpoints.map fun e => e.parameters.size).sum
        requestBodies := (index.endpoints.map fun e => e.requestBodies.size).sum
        responses := (index.endpoints.map fun e => e.responses.size).sum
        cyclesDetected := (ModelGraph.build repository bindings).cycles.length
        cycleDetails := (ModelGraph.build repository bindings).cycles
        danglingReferences := (ModelGraph.build repository bindings).dangling.length
        structuralDiagnostics := diagnostics.countP Diagnostic.isStructural
        schemaDiagnostics := diagnostics.countP fun diagnostic => !diagnostic.isStructural } := by
  -- the innermost fold is replaced first, so that the next one starts from plain counters
  simp only [collect, foldl_recordCycle, recordDangling, foldl_recordModel, recordPaths,
    foldl_recordEndpoint, foldl_recordDiagnostic, Nat.zero_add, List.nil_append, Repository.size]

/-- Each model is of one of the five kinds. -/
theorem sum_modelsOf (models : List Model) :
    modelsOf models .primitive + modelsOf models .enumeration + modelsOf models .object +
      modelsOf models .array + modelsOf models .composition = models.length := by
  induction models with
  | nil => rfl
  | cons model rest ih =>
    have hone : modelsOf [model] .primitive + modelsOf [model] .enumeration +
        modelsOf [model] .object + modelsOf [model] .array +
        modelsOf [model] .composition = 1 := by
      unfold modelsOf
      cases hkind : model.kind <;> simp [hkind]
    simp only [modelsOf_cons model rest, List.length_cons]
    omega

/-- Each diagnostic is of one of the two kinds. -/
theorem sum_isStructural (diagnostics : List Diagnostic) :
    diagnostics.countP Diagnostic.isStructural +
      diagnostics.countP (fun diagnostic => !diagnostic.isStructural) = diagnostics.length := by
  rw [List.length_eq_countP_add_countP Diagnostic.isStructural]
  simp

end Statistics

/-! ## Statistics and what they summarise -/

namespace Analysis

variable (analysis : Analysis)

/-- The statistics agree with the repository: its models are counted in all and by kind. -/
structure CountsModels : Prop where
  registered : analysis.statistics.modelsRegistered = analysis.models.size
  sum : analysis.statistics.modelsRegistered =
    analysis.statistics.primitives + analysis.statistics.enumerations +
      analysis.statistics.objects + analysis.statistics.arrays + analysis.statistics.compositions
  kinds : ∀ kind, analysis.statistics.ofKind kind =
    (analysis.models.models.filter fun model => model.kind = kind).length

/-- The statistics agree with the walk of the index: its nodes but the root are counted, their
endpoints, and what these declare. -/
structure CountsPaths : Prop where
  parts : ∃ rest, analysis.paths.walk = ("/", PathIndex.root) :: rest ∧
    analysis.statistics.pathParts = rest.length
  endpoints : analysis.statistics.endpoints = analysis.paths.listedEndpoints.length
  parameters : analysis.statistics.parameters =
    (analysis.paths.listedEndpoints.map fun endpoint => endpoint.parameters.size).sum
  requestBodies : analysis.statistics.requestBodies =
    (analysis.paths.listedEndpoints.map fun endpoint => endpoint.requestBodies.size).sum
  responses : analysis.statistics.responses =
    (analysis.paths.listedEndpoints.map fun endpoint => endpoint.responses.size).sum

/-- The statistics agree with the references of models and bindings: the groups of models that
reach each other are counted, and the pairs of a name and an unregistered one that it refers to. -/
structure CountsReferences : Prop where
  cycles : analysis.statistics.cyclesDetected = analysis.statistics.cycleDetails.length
  groups : ∀ name other,
    (∃ cycle ∈ analysis.statistics.cycleDetails, name ∈ cycle ∧ other ∈ cycle) ↔
      Relation.TransGen analysis.models.RefersTo name other ∧
        Relation.TransGen analysis.models.RefersTo other name
  inhabited : ∀ cycle ∈ analysis.statistics.cycleDetails, cycle ≠ []
  apart : analysis.statistics.cycleDetails.flatten.Nodup
  dangling : ∃ references : List DanglingReference, references.Nodup ∧
    (∀ reference, reference ∈ references ↔
      ModelGraph.Dangles analysis.models analysis.bindings reference) ∧
    analysis.statistics.danglingReferences = references.length

/-- The statistics agree with the diagnostics, which are counted by kind. -/
structure CountsDiagnostics : Prop where
  structural : analysis.statistics.structuralDiagnostics = analysis.structuralDiagnostics.length
  schema : analysis.statistics.schemaDiagnostics = analysis.schemaDiagnostics.length
  sum : analysis.statistics.structuralDiagnostics + analysis.statistics.schemaDiagnostics =
    analysis.diagnostics.length

end Analysis

section OfState

variable (state : ExtractionState)

/-- The statistics of an extraction, counter by counter. -/
theorem Analysis.statistics_ofState : (Analysis.ofState state).statistics =
    Statistics.collect state.resolver.repository state.index state.bindings
      state.resolver.diagnostics := rfl

/-- Models are counted. -/
theorem Analysis.countsModels_ofState : (Analysis.ofState state).CountsModels where
  registered := by
    rw [statistics_ofState, Statistics.collect_eq]
    rfl
  sum := by
    rw [statistics_ofState, Statistics.collect_eq]
    exact (Statistics.sum_modelsOf _).symm
  kinds := fun kind => by
    rw [statistics_ofState, Statistics.collect_eq, ← List.countP_eq_length_filter]
    cases kind <;> rfl

/-- Diagnostics are counted. -/
theorem Analysis.countsDiagnostics_ofState : (Analysis.ofState state).CountsDiagnostics where
  structural := by
    rw [statistics_ofState, Statistics.collect_eq]
    exact List.countP_eq_length_filter
  schema := by
    rw [statistics_ofState, Statistics.collect_eq]
    exact List.countP_eq_length_filter
  sum := by
    rw [statistics_ofState, Statistics.collect_eq]
    exact Statistics.sum_isStructural _

/-- References are counted: the graph has the cycles and the dangling references of the models. -/
theorem Analysis.countsReferences_ofState : (Analysis.ofState state).CountsReferences := by
  have hclosed := ModelGraph.closed_build state.resolver.repository state.bindings
  have hcomponents := ModelGraph.isComponents_build state.resolver.repository state.bindings
  have hedges := ModelGraph.edge_build_eq state.resolver.repository state.bindings
  constructor <;> rw [statistics_ofState, Statistics.collect_eq]
  case groups =>
    intro name other
    have hpair := hcomponents.mem_cyclesAmong_pair_iff hclosed name other
    rwa [hedges] at hpair
  case inhabited => exact fun _ => hcomponents.ne_nil_of_mem_cyclesAmong hclosed
  case apart => exact hcomponents.nodup_flatten_cyclesAmong hclosed
  case dangling =>
    exact ⟨_, ModelGraph.nodup_dangling_build _ _, fun _ => ModelGraph.mem_dangling_build, rfl⟩

/-- Nodes and endpoints are counted: the walk comes to those that the index has. -/
theorem Analysis.countsPaths_ofState (h : state.index.Branching) :
    (Analysis.ofState state).CountsPaths := by
  have hendpoints := h.listedEndpoints_perm
  obtain ⟨rest, hwalk⟩ := h.walk_eq_cons
  constructor <;> rw [statistics_ofState, Statistics.collect_eq]
  case parts =>
    have hlength := h.walk_perm.length_eq
    rw [hwalk, List.length_map, List.length_cons, List.length_range] at hlength
    exact ⟨rest, hwalk, by simp [PathIndex.size, ← hlength]⟩
  case endpoints => exact hendpoints.length_eq.symm
  case parameters => exact (hendpoints.map _).symm.sum_eq
  case requestBodies => exact (hendpoints.map _).symm.sum_eq
  case responses => exact (hendpoints.map _).symm.sum_eq

end OfState

/-- **The statistics of an analysis agree with what they summarise.** The number of models is that
of the repository and the sum of the counters of the five kinds, each of which is the number of its
models. The number of nodes is that of the walk less the root, which comes first; endpoints,
parameters, request bodies and responses are counted over the nodes of the walk. The cycles are the
groups of models that reach each other, the dangling references the pairs of a name and one that it
refers to but that is not registered. Diagnostics are counted by kind. The walk lists each node and
each endpoint of the index once, and what is read back from the report of the paths is what it
lists, in the same order: nodes with their segments, kinds and schemas, and endpoints under their
methods.

**Proof sketch.** Each counter is a sum over what its fold goes through (`Statistics.collect_eq`).
An extraction keeps the nodes a tree (`growsTo_of_extract`), in which the walk is the recursion that
comes to each node once (`Branching.walk_eq`). So its endpoints are those of the numbered nodes in
another order, with the same sums, and the report is that recursion written as nested objects
(`Report.listed_pathTree`). -/
theorem statistics_of_analyze {document : Document} {options : Options} {analysis : Analysis}
    (h : analyze document options = .ok analysis) :
    analysis.CountsModels ∧ analysis.CountsPaths ∧ analysis.CountsReferences ∧
      analysis.CountsDiagnostics ∧ analysis.paths.ListedOnce ∧ Report.Lists analysis.paths := by
  obtain ⟨state, hextract, hend, rfl⟩ := analyze_ok h
  have hbranching := (growsTo_of_extract hextract).branching PathIndex.branching_empty
  have hlegible : ∀ endpoint ∈ state.index.endpoints, endpoint.Legible := by
    intro endpoint hendpoint
    have hindex := (coherent_of_extract hextract hend).index
    obtain ⟨template, item, operation, -, -, hdeclared⟩ := (hindex.of_mem_endpoints hendpoint).1
    exact hdeclared ▸ document.legible_endpoint template item endpoint.method operation
  exact ⟨Analysis.countsModels_ofState state, Analysis.countsPaths_ofState state hbranching,
    Analysis.countsReferences_ofState state, Analysis.countsDiagnostics_ofState state,
    hbranching.listedOnce,
    Report.lists_of_branching hbranching (tidy_of_extract hextract) hlegible⟩

/-- A document with three operations, an object that refers to itself and to an alias of itself, a
method that is offered twice, and a property without a type. -/
def survey : Document :=
  .ofPaths
    [("/pets/{id}", {
      parameters := [.inline {
        name := "id", location := .path, required := true
        schema := some (.inline { types := .ofList [.integer] }) }]
      get := some {}
      put := some {
        requestBody := some (.inline { content := .ofList [("text/plain", {
          schema := some (.inline { types := .ofList [.string], literals := [.text "a"] }) })] })
        responses := some (.ofList [("200", .inline {})]) } }),
     ("/pets", { trace := some {} })]
    [("A", .reference "#/components/schemas/B"),
     ("B", .inline { types := .ofList [.object],
                     properties := [("p", .reference "#/components/schemas/A"),
                                    ("q", .reference "#/components/schemas/B"),
                                    ("r", .inline {})] })]

/-- The walk comes to the nodes in another order than that of their operations; the reference to the
alias dangles. -/
theorem statistics_survey :
    ∃ analysis, analyze survey {} = .ok analysis ∧
      analysis.paths.walk = [("/", 0), ("/pets", 1), ("/pets/{id}", 2)] ∧
      analysis.paths.listedEndpoints.map Endpoint.method = [.trace, .get, .put] ∧
      analysis.statistics.parameters = 2 ∧ analysis.statistics.cycleDetails = [["B"]] ∧
      analysis.statistics.danglingReferences = 1 ∧
      analysis.structuralDiagnostics = [.duplicateMethod "/pets" .trace] ∧
      analysis.CountsModels ∧ analysis.CountsPaths ∧ analysis.CountsReferences ∧
      analysis.CountsDiagnostics ∧ analysis.paths.ListedOnce ∧ Report.Lists analysis.paths := by
  have hcheck : ((analyze survey {}).toOption.any fun analysis =>
      analysis.paths.walk = [("/", 0), ("/pets", 1), ("/pets/{id}", 2)] ∧
        analysis.paths.listedEndpoints.map Endpoint.method = [.trace, .get, .put] ∧
        analysis.statistics.parameters = 2 ∧ analysis.statistics.cycleDetails = [["B"]] ∧
        analysis.statistics.danglingReferences = 1 ∧
        analysis.structuralDiagnostics = [.duplicateMethod "/pets" .trace]) = true := by
    decide +kernel
  obtain ⟨analysis, h, hfacts⟩ := exists_of_any_toOption hcheck
  obtain ⟨hwalk, hmethods, hparameters, hcycles, hdangling, hstructural⟩ :=
    of_decide_eq_true hfacts
  exact ⟨analysis, h, hwalk, hmethods, hparameters, hcycles, hdangling, hstructural,
    statistics_of_analyze h⟩

end ApiCatalog
