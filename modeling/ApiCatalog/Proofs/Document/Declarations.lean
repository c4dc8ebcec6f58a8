import ApiCatalog.Document.Lookup
import ApiCatalog.Model.Naming
import ApiCatalog.Text.Blank

set_option autoImplicit false

/-!
# What a document declares for its operations

The endpoint of an operation as the document declares it, and the schemas that it asks for with the
names that they are to be resolved under. Both are read off the document alone: entries that lead
nowhere, have no name or no schema are left out, and the last entry of a name counts.

## Main definitions

* `ApiCatalog.DeclaredParameter`: a usable parameter with its schema.
* `Document.declared?`: the parameter of a name that an operation has, its own or that of its path.
* `Document.endpoint`: the endpoint of an operation.
* `Document.requests`: the schemas that the paths of a document ask for, with their names.

## Main results

* `Document.find?_parametersOf`: the parameters of an operation are those that are declared.
* `Document.exists_request_of_mem_references`: an endpoint refers to schemas that it asks for.
-/

namespace ApiCatalog

/-! ## Declarations -/

/-- A usable parameter: its schema, and how it stands in an endpoint. -/
structure DeclaredParameter where
  node : Node
  parameter : EndpointParameter

/-- A declared parameter as an entry of an endpoint's parameters. -/
def DeclaredParameter.entry (declared : DeclaredParameter) : String × EndpointParameter :=
  (declared.parameter.name, declared.parameter)

/-- The media types that have a schema, with it. -/
def contentNodes (content : List (String × MediaType)) : List (String × Node) :=
  content.filterMap fun entry => entry.2.schema.map fun node => (entry.1, node)

/-- The names of the schemas of media types. -/
def contentMap (nameOf : String → ModelName) (content : List (String × MediaType)) :
    OrderedMap String ModelName :=
  .ofList ((contentNodes content).map fun entry => (entry.1, nameOf entry.1))

/-- The schemas of media types, with their names. -/
def contentRequests (nameOf : String → ModelName) (content : List (String × MediaType)) :
    List (ModelName × Node) :=
  (contentNodes content).map fun entry => (nameOf entry.1, entry.2)

namespace Document

variable (document : Document)

/-- What an entry in a list of parameters declares, if it is usable: it leads to a parameter that
has a name and a schema. -/
def declaredParameter? (template : String) (entry : OrReference Parameter) :
    Option DeclaredParameter :=
  match document.parameter entry with
  | .error _ => none
  | .ok (.error _) => none
  | .ok (.ok found) =>
    if Text.isBlankText found.name then none
    else found.schema?.map fun node =>
      ⟨node, found.name, Naming.pathParameter template found.name, found.location,
        .ofRequired found.required⟩

/-- The usable parameters of a list. -/
def declaredParameters (template : String) (entries : List (OrReference Parameter)) :
    List DeclaredParameter :=
  entries.filterMap (document.declaredParameter? template)

/-- The parameters of a list by name. -/
def parameterMap (template : String) (entries : List (OrReference Parameter)) :
    OrderedMap String EndpointParameter :=
  .ofList ((document.declaredParameters template entries).map DeclaredParameter.entry)

/-- The parameter of a name that an operation has: the last one in its own list, or else the last
one in that of its path. -/
def declared? (template : String) (item : PathItem) (operation : Operation) (name : String) :
    Option DeclaredParameter :=
  ((document.declaredParameters template operation.parameters).reverse ++
      (document.declaredParameters template item.parameters).reverse).find?
    fun declared => declared.parameter.name = name

/-- The media types of an operation's request body. -/
def bodyContent (operation : Operation) : List (String × MediaType) :=
  match operation.requestBody with
  | none => []
  | some body =>
    match document.requestBody body with
    | .error _ => []
    | .ok (.error _) => []
    | .ok (.ok found) => found.content.entries

/-- What an entry in a list of responses declares, if it is usable: its key can be read and it
leads to a response. -/
def declaredResponse? (entry : String × OrReference Response) :
    Option (StatusKey × List (String × MediaType)) :=
  match StatusKey.ofText? entry.1 with
  | none => none
  | some status =>
    match document.response entry.2 with
    | .error _ => none
    | .ok (.error _) => none
    | .ok (.ok found) => some (status, found.content.entries)

/-- The usable responses of a list. -/
def declaredResponses (entries : List (String × OrReference Response)) :
    List (StatusKey × List (String × MediaType)) :=
  entries.filterMap document.declaredResponse?

/-- A declared response as an entry of an endpoint's responses. -/
def responseEntry (template : String) (method : HttpMethod)
    (declared : StatusKey × List (String × MediaType)) : StatusKey × EndpointResponse :=
  (declared.1, ⟨declared.1, contentMap (Naming.response template method declared.1) declared.2⟩)

/-- The responses of a list by status key. -/
def responseMap (template : String) (method : HttpMethod)
    (entries : List (String × OrReference Response)) : OrderedMap StatusKey EndpointResponse :=
  .ofList ((document.declaredResponses entries).map (responseEntry template method))

end Document

/-- The responses that an operation lists. -/
def Operation.responseEntries (operation : Operation) : List (String × OrReference Response) :=
  (operation.responses.map SortedMap.entries).getD []

namespace Document

variable (document : Document)

/-- The parameters of an operation by name: those of its path, overridden by its own. -/
def parametersOf (template : String) (item : PathItem) (operation : Operation) :
    OrderedMap String EndpointParameter :=
  (document.parameterMap template item.parameters).insertAll
    (document.parameterMap template operation.parameters).entries

/-- The endpoint of an operation, as it is declared. -/
def endpoint (template : String) (item : PathItem) (method : HttpMethod) (operation : Operation) :
    Endpoint where
  method := method
  parameters := document.parametersOf template item operation
  requestBodies := contentMap (Naming.requestBody template method) (document.bodyContent operation)
  responses := document.responseMap template method operation.responseEntries

/-! ## Requests -/

/-- The schemas of the parameters of a list, with their names. -/
def parameterRequests (template : String) (entries : List (OrReference Parameter)) :
    List (ModelName × Node) :=
  (document.declaredParameters template entries).map fun declared =>
    (declared.parameter.schema, declared.node)

/-- The schemas of the responses of a list, with their names. -/
def responseRequests (template : String) (method : HttpMethod)
    (entries : List (String × OrReference Response)) : List (ModelName × Node) :=
  (document.declaredResponses entries).flatMap fun declared =>
    contentRequests (Naming.response template method declared.1) declared.2

/-- The schemas that an operation asks for by itself, with their names. -/
def operationRequests (template : String) (method : HttpMethod) (operation : Operation) :
    List (ModelName × Node) :=
  document.parameterRequests template operation.parameters ++
    (contentRequests (Naming.requestBody template method) (document.bodyContent operation) ++
      document.responseRequests template method operation.responseEntries)

/-- The schemas that a path asks for, with their names. -/
def pathRequests (template : String) (item : PathItem) : List (ModelName × Node) :=
  document.parameterRequests template item.parameters ++
    item.operations.flatMap fun entry => document.operationRequests template entry.1 entry.2

/-- The schemas that the paths of a document ask for, with their names. -/
def requests : List (ModelName × Node) :=
  document.pathEntries.flatMap fun entry => document.pathRequests entry.1 entry.2

variable {document} {template : String} {item : PathItem} {method : HttpMethod}
  {operation : Operation}

/-- What a path asks for, its document asks for. -/
theorem pathRequests_subset (h : (template, item) ∈ document.pathEntries) :
    document.pathRequests template item ⊆ document.requests :=
  fun _ hrequest => List.mem_flatMap.2 ⟨_, h, hrequest⟩

/-- What an operation asks for, its path asks for. -/
theorem operationRequests_subset (h : (method, operation) ∈ item.operations) :
    document.operationRequests template method operation ⊆ document.pathRequests template item :=
  fun _ hrequest => List.mem_append.2 (.inr (List.mem_flatMap.2 ⟨_, h, hrequest⟩))

/-- A parameter that is found, and has a name and a schema, asks for the schema. -/
theorem mem_parameterRequests {entry : OrReference Parameter} {found : Parameter} {node : Node}
    (hfound : document.parameter entry = .ok (.ok found))
    (hname : Text.isBlankText found.name = false) (hnode : found.schema? = some node) :
    (Naming.pathParameter template found.name, node) ∈
      document.parameterRequests template [entry] := by
  simp [parameterRequests, declaredParameters, declaredParameter?, hfound, hname, hnode]

/-- A list of parameters asks for what its first entry and the others ask for. -/
theorem parameterRequests_cons (entry : OrReference Parameter)
    (rest : List (OrReference Parameter)) :
    document.parameterRequests template (entry :: rest) =
      document.parameterRequests template [entry] ++ document.parameterRequests template rest := by
  rw [parameterRequests, declaredParameters, List.filterMap_cons]
  cases h : document.declaredParameter? template entry <;>
    simp [parameterRequests, declaredParameters, h]

/-- A list of media types asks for what its first entry and the others ask for. -/
theorem contentRequests_cons (nameOf : String → ModelName) (entry : String × MediaType)
    (rest : List (String × MediaType)) :
    contentRequests nameOf (entry :: rest) =
      (entry.2.schema.toList.map fun node => (nameOf entry.1, node)) ++
        contentRequests nameOf rest := by
  rw [contentRequests, contentNodes, List.filterMap_cons]
  cases h : entry.2.schema <;> simp [contentRequests, contentNodes]

/-- A list of responses asks for what its first entry and the others ask for. -/
theorem responseRequests_cons (method : HttpMethod) (entry : String × OrReference Response)
    (rest : List (String × OrReference Response)) :
    document.responseRequests template method (entry :: rest) =
      document.responseRequests template method [entry] ++
        document.responseRequests template method rest := by
  rw [responseRequests, declaredResponses, List.filterMap_cons]
  cases h : document.declaredResponse? entry <;> simp [responseRequests, declaredResponses, h]

/-- A response that is found under a key that can be read asks for the schemas of its media
types. -/
theorem responseRequests_singleton {method : HttpMethod} {key : String}
    {response : OrReference Response} {status : StatusKey} {found : Response}
    (hkey : StatusKey.ofText? key = some status)
    (hfound : document.response response = .ok (.ok found)) :
    document.responseRequests template method [(key, response)] =
      contentRequests (Naming.response template method status) found.content.entries := by
  simp [responseRequests, declaredResponses, declaredResponse?, hkey, hfound]

/-- A request body that is found has its media types. -/
theorem bodyContent_of_found {operation : Operation} {body : OrReference RequestBody}
    {found : RequestBody} (hbody : operation.requestBody = some body)
    (hfound : document.requestBody body = .ok (.ok found)) :
    document.bodyContent operation = found.content.entries := by
  simp [bodyContent, hbody, hfound]

/-! ## Parameters of an endpoint -/

/-- What a declared parameter is called, and what its schema. -/
theorem schema_of_mem_declaredParameters {entries : List (OrReference Parameter)}
    {declared : DeclaredParameter} (h : declared ∈ document.declaredParameters template entries) :
    declared.parameter.schema = Naming.pathParameter template declared.parameter.name := by
  obtain ⟨entry, -, hentry⟩ := List.mem_filterMap.1 h
  unfold declaredParameter? at hentry
  split at hentry
  · cases hentry
  · cases hentry
  · split at hentry
    · cases hentry
    · obtain ⟨node, -, rfl⟩ := Option.map_eq_some_iff.1 hentry
      rfl

/-- What is found under a name among entries made from declared parameters. -/
theorem findIn_parameters (declared : List DeclaredParameter) (name : String) :
    OrderedMap.findIn name (declared.map DeclaredParameter.entry) =
      (declared.find? fun declared => declared.parameter.name = name).map
        DeclaredParameter.parameter := by
  induction declared with
  | nil => rfl
  | cons first rest ih =>
    rw [List.map_cons, OrderedMap.findIn, List.find?_cons, ih]
    by_cases h : first.parameter.name = name <;> simp [DeclaredParameter.entry, h]

/-- The last parameter of a name counts. -/
theorem find?_parameterMap (entries : List (OrReference Parameter)) (name : String) :
    (document.parameterMap template entries).find? name =
      ((document.declaredParameters template entries).reverse.find? fun declared =>
        declared.parameter.name = name).map DeclaredParameter.parameter := by
  rw [parameterMap, OrderedMap.ofList, OrderedMap.find?_insertAll, ← List.map_reverse,
    findIn_parameters, OrderedMap.find?_empty, Option.or_none]

/-- **The parameters of an operation are those that are declared** for it. -/
theorem find?_parametersOf (name : String) :
    (document.parametersOf template item operation).find? name =
      (document.declared? template item operation name).map DeclaredParameter.parameter := by
  rw [parametersOf, OrderedMap.find?_insertAll_entries, find?_parameterMap, find?_parameterMap,
    declared?, List.find?_append]
  cases List.find? _ (document.declaredParameters template operation.parameters).reverse <;> rfl

/-- A parameter of an operation is in its own list or in that of its path. -/
theorem mem_of_declared? {name : String} {declared : DeclaredParameter}
    (h : document.declared? template item operation name = some declared) :
    declared ∈ document.declaredParameters template operation.parameters ∨
      declared ∈ document.declaredParameters template item.parameters := by
  have hmem := List.mem_of_find?_eq_some h
  simpa using hmem

/-- A parameter of an operation is declared under its name. -/
theorem exists_declared_of_mem_parametersOf {parameter : EndpointParameter}
    (h : parameter ∈ (document.parametersOf template item operation).values) :
    ∃ declared, document.declared? template item operation parameter.name = some declared ∧
      declared.parameter = parameter := by
  obtain ⟨⟨key, value⟩, hentry, rfl⟩ := List.mem_map.1 h
  rw [← OrderedMap.find?_eq_some_iff, find?_parametersOf] at hentry
  obtain ⟨declared, hdeclared, rfl⟩ := Option.map_eq_some_iff.1 hentry
  have hname : declared.parameter.name = key := by
    simpa using List.find?_some hdeclared
  rw [← hname] at hdeclared
  exact ⟨declared, hdeclared, rfl⟩

/-- The schema of a parameter is asked for by the path or by the operation. -/
theorem request_of_declared? {name : String} {declared : DeclaredParameter}
    (h : document.declared? template item operation name = some declared) :
    (declared.parameter.schema, declared.node) ∈
      document.parameterRequests template item.parameters ++
        document.parameterRequests template operation.parameters := by
  rcases mem_of_declared? h with hmem | hmem
  · exact List.mem_append.2 (.inr (List.mem_map.2 ⟨declared, hmem, rfl⟩))
  · exact List.mem_append.2 (.inl (List.mem_map.2 ⟨declared, hmem, rfl⟩))

/-- The parameters of an operation are among what the path asks for. -/
theorem parameterRequests_subset (h : (method, operation) ∈ item.operations) :
    document.parameterRequests template item.parameters ++
        document.parameterRequests template operation.parameters ⊆
      document.pathRequests template item := by
  refine List.append_subset.2 ⟨List.subset_append_left _ _, ?_⟩
  exact List.Subset.trans (List.subset_append_left _ _) (operationRequests_subset h)

/-! ## References of an endpoint -/

/-- The names of media types are those of their schemas. -/
theorem exists_contentRequest {nameOf : String → ModelName} {content : List (String × MediaType)}
    {name : ModelName} (h : name ∈ (contentMap nameOf content).values) :
    ∃ node, (name, node) ∈ contentRequests nameOf content := by
  have hname := OrderedMap.mem_values_ofList h
  rw [List.map_map] at hname
  obtain ⟨entry, hentry, rfl⟩ := List.mem_map.1 hname
  exact ⟨entry.2, List.mem_map.2 ⟨entry, hentry, rfl⟩⟩

/-- **An endpoint refers to schemas that it asks for**: those of the parameters of its path, or
those of its operation. -/
theorem exists_request_of_mem_references {name : ModelName}
    (h : name ∈ (document.endpoint template item method operation).references) :
    ∃ node, (name, node) ∈ document.parameterRequests template item.parameters ++
      document.operationRequests template method operation := by
  rw [operationRequests]
  simp only [Endpoint.references, List.mem_append] at h
  rcases h with (h | h) | h
  · obtain ⟨parameter, hparameter, rfl⟩ := List.mem_map.1 h
    obtain ⟨declared, hdeclared, rfl⟩ := exists_declared_of_mem_parametersOf hparameter
    refine ⟨declared.node, ?_⟩
    rw [← List.append_assoc]
    exact List.mem_append.2 (.inl (request_of_declared? hdeclared))
  · obtain ⟨node, hnode⟩ := exists_contentRequest h
    exact ⟨node, by simp [hnode]⟩
  · obtain ⟨response, hresponse, hname⟩ := List.mem_flatMap.1 h
    have hresponses := OrderedMap.mem_values_ofList hresponse
    rw [List.map_map] at hresponses
    obtain ⟨declared, hdeclared, rfl⟩ := List.mem_map.1 hresponses
    obtain ⟨node, hnode⟩ : ∃ node, (name, node) ∈
      contentRequests (Naming.response template method declared.1) declared.2 :=
      exists_contentRequest hname
    have hmem : (name, node) ∈
        document.responseRequests template method operation.responseEntries :=
      List.mem_flatMap.2 ⟨declared, hdeclared, hnode⟩
    exact ⟨node, by simp [hmem]⟩

end Document

end ApiCatalog
