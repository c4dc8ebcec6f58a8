import ApiCatalog.Proofs.Analysis.References
import ApiCatalog.Proofs.Extraction.Bindings
import ApiCatalog.Proofs.Extraction.Endpoints

set_option autoImplicit false

/-!
# Bindings of an analysis

How the repository, the path index and the bindings of an analysis fit together: endpoints refer to
schemas by the names that these have in their places, and bindings lead from there to models.

## Main results

* `ApiCatalog.bindings_link_endpoints`: bindings lead to registered models, and if no schema was
  reported, every name in the index is bound.
* `ApiCatalog.parameterBinding_denoted`: what the name of a parameter's schema is bound to.
* `ApiCatalog.parameterBinding_shadowed`: it need not be what the schema of the parameter denotes.
-/

namespace ApiCatalog

/-! ## From the index to the models -/

/-- **Bindings lead from the index to the models**: each of them is a list of registered names that
is not empty, and if no problem of a schema was met, then every name that an endpoint or a parameter
node refers to is bound.

**Proof sketch.** What is bound is denoted by the schema that it was resolved from, whose models are
registered when the name is bound (`bindsRequests_of_extract`). The endpoints are built from what
was resolved before, and a resolution that binds nothing has met a problem
(`coherent_of_extract`). -/
theorem bindings_link_endpoints {document : Document} {options : Options} {analysis : Analysis}
    (h : analyze document options = .ok analysis) :
    (∀ name references, (name, references) ∈ analysis.bindings.entries →
      references ≠ [] ∧
        ∀ reference ∈ references, analysis.models.contains reference = true) ∧
    (analysis.schemaDiagnostics = [] →
      (∀ endpoint ∈ analysis.paths.endpoints, ∀ name ∈ endpoint.references,
        analysis.bindings.contains name = true) ∧
      ∀ part ∈ analysis.paths.parts, ∀ schema, part.schema? = some schema →
        analysis.bindings.contains schema = true) := by
  obtain ⟨state, hextract, hend, rfl⟩ := analyze_ok h
  refine ⟨fun name references hentry => ?_, fun hsilent => ?_⟩
  · have hbinding := bindsRequests_of_extract hextract name references
      (OrderedMap.find?_eq_some_iff.2 hentry)
    exact ⟨hbinding.nonempty, hbinding.registered⟩
  · have hcoherent := coherent_of_extract hextract hend
    have hbound : ∀ name, state.AccountsFor name → state.bindings.contains name = true := by
      rintro name (hcontains | ⟨diagnostic, hmem, hkind⟩)
      · exact hcontains
      · have hnone := (List.filter_eq_nil_iff.1 hsilent) diagnostic hmem
        simp [hkind] at hnone
    refine ⟨fun endpoint hendpoint name hname => ?_, fun part hpart schema hschema => ?_⟩
    · exact hbound name ((hcoherent.index.of_mem_endpoints hendpoint).2 name hname)
    · exact hbound schema ((hcoherent.index part hpart).schema schema hschema)

/-- A document with certain paths and component schemas. -/
def Document.ofPaths (paths : List (String × PathItem)) (schemas : List (String × Node)) :
    Document :=
  { Document.ofSchemas schemas with paths := some (.ofList paths) }

/-- One operation with a path parameter, a query parameter, a body and a response that refers to a
component. -/
def petStore : Document :=
  .ofPaths
    [("/pets/{id}", {
      parameters := [.inline {
        name := "id", location := .path, required := true
        schema := some (.inline { types := .ofList [.string] }) }]
      put := some {
        parameters := [.inline {
          name := "limit", location := .query
          schema := some (.inline { types := .ofList [.integer, .null] }) }]
        requestBody := some (.inline { content := .ofList [("text/plain", {
          schema := some (.inline { types := .ofList [.string], literals := [.text "a"] }) })] })
        responses := some (.ofList [("200", .inline { content := .ofList [("application/json", {
          schema := some (.reference "#/components/schemas/Pet") })] })]) } })]
    [("Pet", .inline { types := .ofList [.object],
                       properties := [("next", .reference "#/components/schemas/Pet")] })]

/-- The names in the index of the pet store are bound. -/
theorem bindings_link_petStore :
    ∃ analysis, analyze petStore {} = .ok analysis ∧ analysis.schemaDiagnostics = [] ∧
      analysis.bindings.size = 4 ∧
      (∀ endpoint ∈ analysis.paths.endpoints, ∀ name ∈ endpoint.references,
        analysis.bindings.contains name = true) ∧
      ∀ part ∈ analysis.paths.parts, ∀ schema, part.schema? = some schema →
        analysis.bindings.contains schema = true := by
  have hcheck : ((analyze petStore {}).toOption.any fun analysis =>
      analysis.schemaDiagnostics = [] && analysis.bindings.size = 4) = true := by decide +kernel
  obtain ⟨analysis, h, hcheck⟩ := exists_of_any_toOption hcheck
  obtain ⟨hsilent, hsize⟩ := Bool.and_eq_true_iff.1 hcheck
  have hsilent : analysis.schemaDiagnostics = [] := by simpa using hsilent
  exact ⟨analysis, h, hsilent, by simpa using hsize, (bindings_link_endpoints h).2 hsilent⟩

/-! ## Parameters of a name -/

/-- **What the name of a parameter's schema is bound to**: a stored endpoint has the parameters that
its operation declares, or inherits from its path. The name of a parameter's schema is made of the
template and the name of the parameter, and is shared by all schemas that the paths ask for under
it. It is bound to what one of these denotes, hence to what the schema of the parameter itself
denotes if they denote the same.

**Proof sketch.** Endpoints are declared ones by `coherent_of_extract`, whose parameters are known
from `Document.find?_parametersOf`; `bindsRequests_of_extract` tells what is bound. -/
theorem parameterBinding_denoted {document : Document} {options : Options} {analysis : Analysis}
    (h : analyze document options = .ok analysis) {endpoint : Endpoint}
    (hendpoint : endpoint ∈ analysis.paths.endpoints) {parameter : EndpointParameter}
    (hparameter : parameter ∈ endpoint.parameters.values) :
    ∃ template item operation declared, (template, item) ∈ document.pathEntries ∧
      (endpoint.method, operation) ∈ item.operations ∧
      document.declared? template item operation parameter.name = some declared ∧
      declared.parameter = parameter ∧
      parameter.schema = Naming.pathParameter template parameter.name ∧
      (parameter.schema, declared.node) ∈ document.requests ∧
      ∀ references, analysis.bindings.find? parameter.schema = some references →
        (∃ node, (parameter.schema, node) ∈ document.requests ∧
          document.Denotes node parameter.schema false references) ∧
        ((∀ node other, (parameter.schema, node) ∈ document.requests →
            document.Denotes node parameter.schema false other →
            document.Denotes declared.node parameter.schema false other) →
          document.Denotes declared.node parameter.schema false references) := by
  obtain ⟨state, hextract, hend, rfl⟩ := analyze_ok h
  obtain ⟨⟨template, item, operation, hpath, hoperation, hdeclares⟩, -⟩ :=
    (coherent_of_extract hextract hend).index.of_mem_endpoints hendpoint
  rw [hdeclares] at hparameter
  obtain ⟨declared, hdeclared, rfl⟩ := Document.exists_declared_of_mem_parametersOf hparameter
  have hrequest : (declared.parameter.schema, declared.node) ∈ document.requests :=
    Document.pathRequests_subset hpath
      (Document.parameterRequests_subset hoperation (Document.request_of_declared? hdeclared))
  have hschema : declared.parameter.schema =
      Naming.pathParameter template declared.parameter.name := by
    rcases Document.mem_of_declared? hdeclared with hmem | hmem
    · exact Document.schema_of_mem_declaredParameters hmem
    · exact Document.schema_of_mem_declaredParameters hmem
  refine ⟨template, item, operation, declared, hpath, hoperation, hdeclared, rfl, hschema, hrequest,
    fun references hfind => ?_⟩
  obtain ⟨node, hnode, hdenotes⟩ := (bindsRequests_of_extract hextract _ _ hfind).denoted
  exact ⟨⟨node, hnode, hdenotes⟩, fun hagree => hagree node references hnode hdenotes⟩

/-- The name of the pet store's path parameter is bound to what the schema of that denotes, since no
other schema is asked for under it. -/
theorem parameterBinding_petStore :
    ∃ analysis endpoint parameter, analyze petStore {} = .ok analysis ∧
      endpoint ∈ analysis.paths.endpoints ∧ parameter ∈ endpoint.parameters.values ∧
      parameter.schema = "/pets/{id}/.id" ∧ ∃ template item operation declared,
        petStore.declared? template item operation parameter.name = some declared ∧
        declared.parameter = parameter ∧ ∃ references,
          analysis.bindings.find? parameter.schema = some references ∧
          petStore.Denotes declared.node parameter.schema false references := by
  let parameter : EndpointParameter := ⟨"id", "/pets/{id}/.id", .path, .required⟩
  have hcheck : ((analyze petStore {}).toOption.any fun analysis =>
      (analysis.paths.endpoints.any fun endpoint =>
        endpoint.parameters.values.contains parameter) &&
      (analysis.bindings.find? parameter.schema).isSome) = true := by decide +kernel
  obtain ⟨analysis, h, hcheck⟩ := exists_of_any_toOption hcheck
  obtain ⟨hendpoint, hbinding⟩ := Bool.and_eq_true_iff.1 hcheck
  obtain ⟨endpoint, hendpoint, hparameter⟩ := List.any_eq_true.1 hendpoint
  have hparameter : parameter ∈ endpoint.parameters.values := by simpa using hparameter
  obtain ⟨references, hbinding⟩ := Option.isSome_iff_exists.1 hbinding
  have honly : ∀ node, (parameter.schema, node) ∈ petStore.requests →
      node = .inline { types := .ofList [.string] } := by
    intro node hnode
    have hfilter : petStore.requests.filter (fun request => request.1 = parameter.schema) =
        [(parameter.schema, .inline { types := .ofList [.string] })] := rfl
    have hmem : (parameter.schema, node) ∈
        petStore.requests.filter (fun request => request.1 = parameter.schema) :=
      List.mem_filter.2 ⟨hnode, decide_eq_true rfl⟩
    rw [hfilter, List.mem_singleton] at hmem
    exact congrArg Prod.snd hmem
  obtain ⟨template, item, operation, declared, -, -, hdeclared, heq, -, hrequest, hentry⟩ :=
    parameterBinding_denoted h hendpoint hparameter
  refine ⟨analysis, endpoint, parameter, h, hendpoint, hparameter, rfl, template, item, operation,
    declared, hdeclared, heq, references, hbinding, (hentry references hbinding).2 ?_⟩
  intro node other hnode hdenotes
  rw [honly node hnode] at hdenotes
  rw [honly declared.node hrequest]
  exact hdenotes

/-- An operation with a parameter that is a text. -/
def shadowingOperation : Operation where
  parameters := [.inline {
    name := "id", location := .query
    schema := some (.inline { types := .ofList [.string] }) }]

/-- A path with a parameter of the same name that is a number. -/
def shadowingPath : PathItem where
  parameters := [.inline {
    name := "id", location := .query
    schema := some (.inline { types := .ofList [.integer] }) }]
  get := some shadowingOperation

/-- A parameter of a path that its only operation overrides, with a schema of another type. -/
def shadowing : Document :=
  .ofPaths [("/a", shadowingPath)] []

/-- The parameter that the operation has. -/
def shadowingParameter : DeclaredParameter where
  node := .inline { types := .ofList [.string] }
  parameter := ⟨"id", "/a/.id", .query, .optional⟩

/-- **A binding need not be what the schema of the parameter denotes**: the operation overrides the
parameter of its path, but the schema of the latter was bound to the name before. -/
theorem parameterBinding_shadowed :
    shadowing.declared? "/a" shadowingPath shadowingOperation "id" = some shadowingParameter ∧
    shadowing.Denotes shadowingParameter.node "/a/.id" false ["#/primitive/string"] ∧
    ∃ analysis, analyze shadowing {} = .ok analysis ∧
      (∃ endpoint ∈ analysis.paths.endpoints,
        shadowingParameter.parameter ∈ endpoint.parameters.values) ∧
      analysis.bindings.find? "/a/.id" = some ["#/primitive/integer"] := by
  have hcheck : ((analyze shadowing {}).toOption.any fun analysis =>
      (analysis.paths.endpoints.any fun endpoint =>
        endpoint.parameters.values.contains shadowingParameter.parameter) &&
      analysis.bindings.find? "/a/.id" = some ["#/primitive/integer"]) = true := by
    decide +kernel
  obtain ⟨analysis, h, hcheck⟩ := exists_of_any_toOption hcheck
  obtain ⟨hendpoint, hbinding⟩ := Bool.and_eq_true_iff.1 hcheck
  obtain ⟨endpoint, hendpoint, hparameter⟩ := List.any_eq_true.1 hendpoint
  exact ⟨rfl, .inPlace, analysis, h, ⟨endpoint, hendpoint, by simpa using hparameter⟩,
    by simpa using hbinding⟩

end ApiCatalog
