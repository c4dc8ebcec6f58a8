import ApiCatalog.Proofs.Extraction.Recording

set_option autoImplicit false

/-!
# Path parameters of an analysis

A path parameter that counts for an operation is bound to the node of the segment that bears its
name, or it is reported. Which parameter counts is told by the name alone: a parameter of an
operation replaces that of its path, even if the two are sent in different places, and then the one
that is replaced is neither bound nor reported.

## Main results

* `Extraction.OperationTurn.binds`: the turn of an operation binds its path parameters.
* `Document.Provides.mem_diagnostics_iff`: the reports on an operation.
* `ApiCatalog.pathParameters_of_analyze`: what has become of each path parameter that counts.
* `ApiCatalog.pathParameters_replaced`: a path parameter that is replaced.
-/

namespace ApiCatalog

/-! ## Bound parameters -/

namespace Extraction

variable {document : Document} {cancelAt : Option Nat} {template : String} {item : PathItem}
  {method : HttpMethod} {operation : Operation} {shared : ParameterMap} {walked : WalkedPath}
  {state passed before after : ExtractionState}

/-- **The turn of an operation that becomes an endpoint** puts it at its node, and binds the path
parameters that count to the nodes of their segments. -/
theorem OperationTurn.binds
    (h : OperationTurn ⟨document, cancelAt⟩ state passed template item method operation shared
      walked before after)
    (hawaits : Awaits document template item method shared walked before)
    (hend : passed.resolver.cancelled = false) :
    after.index.endpointAt walked.terminal method =
        some (document.endpoint template item method operation) ∧
      walked.Follows after.index (templateSegments template) ∧
      BindsAll walked (document.parametersOf template item operation).values after.index := by
  obtain ⟨hpath, hoperation⟩ := h.mem
  have hrequests := h.requests_subset
  have hactive := h.grows.1.not_cancelled hend
  cases h with
  | intro _ _ _ _ _ _ turn =>
    have hterminal := PathIndex.lt_of_descend before.index.root_lt hawaits.follows.terminal
    have hfilled := (extractOperation_yields (.any _) hpath hoperation
      (fun request hrequest => List.mem_map_of_mem hrequest) hterminal
      hawaits.informed).answer turn
    refine ⟨?_, hawaits.follows.mono hfilled.outline.toExtends, ?_⟩
    · rw [hfilled.endpointAt hactive, hawaits.free, if_pos rfl, Option.none_or]
      simp [Document.offer]
    · exact (files_insertBuilt hrequests hawaits.proper hawaits.follows hawaits.informed
        hawaits.free turn).2 hactive

end Extraction

namespace Document

variable {document : Document} {options : Options} {state : ExtractionState} {id : Nat}
  {template : String} {item : PathItem} {method : HttpMethod} {operation : Operation}

/-- The parameter that counts under a name bears it. -/
theorem name_of_declared? {name : String} {counted : DeclaredParameter}
    (h : document.declared? template item operation name = some counted) :
    counted.parameter.name = name := by
  simpa using List.find?_some h

/-- A parameter counts under the name of each usable one. -/
theorem exists_declared {declared : DeclaredParameter}
    (h : declared ∈ document.declaredParameters template operation.parameters ++
      document.declaredParameters template item.parameters) :
    ∃ counted, document.declared? template item operation declared.parameter.name =
      some counted := by
  refine Option.isSome_iff_exists.1 (List.find?_isSome.2 ⟨declared, ?_, decide_eq_true rfl⟩)
  simpa using h

/-- A parameter that counts is among those of the operation. -/
theorem mem_values_parametersOf {name : String} {counted : DeclaredParameter}
    (h : document.declared? template item operation name = some counted) :
    counted.parameter ∈ (document.parametersOf template item operation).values := by
  have hfind : (document.parametersOf template item operation).find? name =
      some counted.parameter := by
    rw [find?_parametersOf, h]
    rfl
  exact List.mem_map.2 ⟨_, OrderedMap.find?_eq_some_iff.1 hfind, rfl⟩

/-! ## Reports on parameters -/

/-- **The reports on an operation** that provides an endpoint are those that it gives reason for. -/
theorem Provides.mem_diagnostics_iff {diagnostic : Diagnostic}
    (h : document.Provides state.index id method template item operation)
    (hextract : extract document options = .ok state) (hend : state.resolver.cancelled = false)
    (hconcerns : diagnostic.Concerns template method)
    (hblames : document.blamesSchema diagnostic = false) :
    diagnostic ∈ state.resolver.diagnostics ↔ diagnostic ∈
      unboundComplaints template method (document.parametersOf template item operation).values ++
        (document.bodyComplaints template method operation ++
          document.responseComplaints template method operation.responseEntries) := by
  have hfilter : ∀ diagnostics : List Diagnostic,
      diagnostic ∈ diagnostics ↔ diagnostic ∈ diagnostics.filter (· = diagnostic) := fun _ => by
    simp
  rw [hfilter state.resolver.diagnostics, h.filter_diagnostics hextract hend, ← hfilter]
  intro other hof
  obtain rfl := of_decide_eq_true hof
  exact ⟨hconcerns, hblames⟩

/-- A path parameter is reported exactly if it counts and no segment bears its name. -/
theorem Provides.unboundPathParameter_mem_iff
    (h : document.Provides state.index id method template item operation)
    (hextract : extract document options = .ok state) (hend : state.resolver.cancelled = false)
    (name : String) :
    .unboundPathParameter template method name ∈ state.resolver.diagnostics ↔
      (∃ counted, document.declared? template item operation name = some counted ∧
        counted.parameter.location = .path) ∧
        parameterSegment name ∉ templateSegments template := by
  have hconcerns :
      (Diagnostic.unboundPathParameter template method name).Concerns template method :=
    ⟨rfl, rfl⟩
  rw [h.mem_diagnostics_iff hextract hend hconcerns rfl, List.mem_append,
    or_iff_left (unboundPathParameter_notMem operation), ← mem_parameterNames_iff,
    unboundComplaints, List.mem_map]
  constructor
  · rintro ⟨parameter, hparameter, heq⟩
    obtain ⟨hmem, hof⟩ := List.mem_filter.1 hparameter
    obtain ⟨hlocation, hmissing⟩ : parameter.location = .path ∧
        parameter.name ∉ parameterNames (templateSegments template) := by simpa using hof
    obtain rfl : parameter.name = name := (Diagnostic.unboundPathParameter.inj heq).2.2
    obtain ⟨counted, hcounted, rfl⟩ := exists_declared_of_mem_parametersOf hmem
    exact ⟨⟨counted, hcounted, hlocation⟩, hmissing⟩
  · rintro ⟨⟨counted, hcounted, hlocation⟩, hmissing⟩
    have hname := name_of_declared? hcounted
    refine ⟨counted.parameter, List.mem_filter.2 ⟨mem_values_parametersOf hcounted, ?_⟩, ?_⟩
    · simp [hlocation, hname, hmissing]
    · rw [hname]

end Document

/-- **What has become of each path parameter that counts.** An operation that provides an endpoint
has its turn, after which its node has the endpoint. Take a usable path parameter that the operation
or its path lists. If the parameter that counts under its name, the last one of the operation or
else of the path, is a path parameter as well, then either a segment bears the name, and the node of
that segment is bound from then on, or none does, and that is reported.

**Proof sketch.** The turn of the operation is known from `Extraction.exists_operationTurn`, and
what it binds from `Extraction.OperationTurn.binds`. A parameter that counts is reported exactly if
no segment bears its name (`Document.Provides.unboundPathParameter_mem_iff`). -/
theorem pathParameters_of_analyze {document : Document} {options : Options} {analysis : Analysis}
    (h : analyze document options = .ok analysis) {id : Nat} {template : String} {item : PathItem}
    {method : HttpMethod} {operation : Operation}
    (hprovides : document.Provides analysis.paths id method template item operation) :
    ∃ passed shared walked before after,
      Extraction.OperationTurn ⟨document, options.cancelAt⟩ options.initialState passed template
        item method operation shared walked before after ∧
      before.index.endpointAt id method = none ∧
      after.index.endpointAt id method =
        some (document.endpoint template item method operation) ∧
      ∀ declared ∈ document.declaredParameters template operation.parameters ++
          document.declaredParameters template item.parameters,
        declared.parameter.location = .path →
        (∀ counted, document.declared? template item operation declared.parameter.name =
          some counted → counted.parameter.location = .path) →
        (parameterSegment declared.parameter.name ∈ templateSegments template ∧
          .unboundPathParameter template method declared.parameter.name ∉ analysis.diagnostics ∧
          ∃ initial node schema,
            initial ++ [parameterSegment declared.parameter.name] <+: templateSegments template ∧
            after.index.descend PathIndex.root
              (initial ++ [parameterSegment declared.parameter.name]) = some node ∧
            after.index.boundAt node = some schema ∧
            analysis.paths.boundAt node = some schema) ∨
        (parameterSegment declared.parameter.name ∉ templateSegments template ∧
          .unboundPathParameter template method declared.parameter.name ∈
            analysis.diagnostics) := by
  obtain ⟨state, hextract, hend, rfl⟩ := analyze_ok h
  obtain ⟨passed, hpaths, hlater, hindex, -⟩ := exists_passed_of_extract hextract
  have hend' := hlater.not_cancelled hend
  have hprovides' : document.Provides passed.index id method template item operation :=
    hindex ▸ hprovides
  obtain ⟨shared, walked, before, after, hturn, rfl, hawaits⟩ :=
    Extraction.exists_operationTurn indexed_initialState hpaths hend' hprovides'
  obtain ⟨hstored, hfollows, hbinds⟩ := hturn.binds hawaits hend'
  refine ⟨passed, shared, walked, before, after, hturn, hawaits.free, hstored,
    fun declared hdeclared hlocation hcounts => ?_⟩
  have hreport := hprovides.unboundPathParameter_mem_iff hextract hend declared.parameter.name
  obtain ⟨counted, hcounted⟩ := Document.exists_declared hdeclared
  have hcountedLocation := hcounts counted hcounted
  have hname := Document.name_of_declared? hcounted
  by_cases hsegment : parameterSegment declared.parameter.name ∈ templateSegments template
  · refine .inl ⟨hsegment, fun hmem => (hreport.1 hmem).2 hsegment, ?_⟩
    obtain ⟨node, hnode⟩ := Option.isSome_iff_exists.1
      ((hfollows.find?_isSome_iff _).2 (mem_parameterNames_iff.2 hsegment))
    obtain ⟨initial, hinitial, hdescend⟩ := hfollows.nodes _ node hnode
    obtain ⟨schema, hbound⟩ := Option.isSome_iff_exists.1
      (hbinds _ (Document.mem_values_parametersOf hcounted) hcountedLocation node (hname ▸ hnode))
    refine ⟨initial, node, schema, hinitial, hdescend, hbound, ?_⟩
    show state.index.boundAt node = some schema
    rw [hindex]
    exact hturn.grows.2.boundAt hbound
  · exact .inr ⟨hsegment, hreport.2 ⟨⟨counted, hcounted, hcountedLocation⟩, hsegment⟩⟩

/-- A usable parameter that is a text. -/
def textParameter (name : String) (location : ParameterLocation) : OrReference Parameter :=
  .inline { name, location, schema := some (.inline { types := .ofList [.string] }) }

/-- A document with one operation, which has certain parameters, as has its path. -/
def Document.ofParameters (template : String) (shared own : List (OrReference Parameter)) :
    Document :=
  .ofPaths [(template, { parameters := shared, get := some { parameters := own } })] []

/-- One path parameter for which there is a segment, and one for which there is none. -/
def strayParameter : Document :=
  .ofParameters "/a/{id}" [textParameter "id" .path] [textParameter "other" .path]

/-- The parameter that has a segment is bound, and the other one is reported. -/
theorem pathParameters_stray :
    ∃ analysis, analyze strayParameter {} = .ok analysis ∧
      .unboundPathParameter "/a/{id}" .get "other" ∈ analysis.diagnostics ∧
      .unboundPathParameter "/a/{id}" .get "id" ∉ analysis.diagnostics ∧
      ∃ node schema, analysis.paths.boundAt node = some schema := by
  have hcheck : ((analyze strayParameter {}).toOption.any fun analysis =>
      strayParameter.pathEntries.all fun entry =>
        (strayParameter.contribution analysis.paths 2 .get entry).isSome) = true := by
    decide +kernel
  obtain ⟨analysis, h, hcheck⟩ := exists_of_any_toOption hcheck
  have hentries : strayParameter.pathEntries = [("/a/{id}", {
      parameters := [textParameter "id" .path],
      get := some { parameters := [textParameter "other" .path] } })] := rfl
  rw [hentries, List.all_cons, List.all_nil, Bool.and_true] at hcheck
  have hprovides : strayParameter.Provides analysis.paths 2 .get "/a/{id}" _ _ :=
    ⟨by rw [hentries, List.find?_cons, hcheck], rfl⟩
  obtain ⟨_, _, _, _, _, -, -, -, hall⟩ := pathParameters_of_analyze h hprovides
  obtain ⟨hunmatched, -⟩ | ⟨-, hreported⟩ := hall _ (.head _) rfl fun counted hcounted => by
    cases hcounted
    rfl
  · exact absurd hunmatched (by decide)
  obtain ⟨-, hsilent, _, node, schema, -, -, -, hbound⟩ | ⟨hmissing, -⟩ :=
    hall _ (.tail _ (.head _)) rfl fun counted hcounted => by
      cases hcounted
      rfl
  · exact ⟨analysis, h, hreported, hsilent, node, schema, hbound⟩
  · exact absurd hmissing (by decide)

/-- A path parameter that has a segment, and a query parameter of its name. -/
def replacedParameter : Document :=
  .ofParameters "/a/{id}" [textParameter "id" .path] [textParameter "id" .query]

/-- **A path parameter that another one replaces** is neither bound nor reported. -/
theorem pathParameters_replaced :
    (∃ declared ∈ replacedParameter.declaredParameters "/a/{id}" [textParameter "id" .path],
      declared.parameter.name = "id" ∧ declared.parameter.location = .path) ∧
    ∃ analysis, analyze replacedParameter {} = .ok analysis ∧
      (analysis.paths.endpointAt 2 .get).isSome ∧
      analysis.paths.descend PathIndex.root ["a", "{id}"] = some 2 ∧
      analysis.paths.boundAt 2 = none ∧ analysis.diagnostics = [] := by
  have hcheck : ((analyze replacedParameter {}).toOption.any fun analysis =>
      (analysis.paths.endpointAt 2 .get).isSome &&
        (analysis.paths.descend PathIndex.root ["a", "{id}"] = some 2 &&
          (analysis.paths.boundAt 2 = none && analysis.diagnostics = []))) = true := by
    decide +kernel
  obtain ⟨analysis, h, hcheck⟩ := exists_of_any_toOption hcheck
  refine ⟨⟨_, .head _, rfl, rfl⟩, analysis, h, ?_⟩
  simpa using hcheck

end ApiCatalog
