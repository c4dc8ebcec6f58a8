import ApiCatalog.Extraction.State
import ApiCatalog.Text.Blank

set_option autoImplicit false

/-!
# Extracting paths

Every path template is laid into the index, and every operation of it becomes an endpoint at the
node the template leads to. What cannot be used is reported and left out.

## Main definitions

* `Extraction.collectParameters`: the usable parameters of a list.
* `Extraction.walkTemplate`: the nodes of a template.
* `Extraction.buildEndpoint`: the endpoint of an operation.
* `Extraction.extractPath`, `Extraction.extractPaths`: the endpoints of a template, and of all.

## Design

The passes are a family over `Reactions`, of which an extraction has none. What the others add, they
add at refusals. So a refusal does not occur in an extraction if all members of the family do the
same.
-/

namespace ApiCatalog

/-- The nodes of a template: the last one, and those of its parameters by name. -/
structure WalkedPath where
  terminal : Nat
  parameters : OrderedMap String Nat
deriving DecidableEq

/-- What is said of a template whose place the index refuses; a number that is unknown to the
index ends the extraction. -/
def Diagnostic.ofIndexError (template : String) : PathIndexError → Except Abort Diagnostic
  | .kindMismatch segment existing => .ok (.segmentKindMismatch template segment existing)
  | .duplicateMethod _ method => .ok (.duplicateMethod template method)
  | .notAParameter segment => .ok (.segmentKindMismatch template segment .constant)
  | .unknownPart id => .error (.unknownPart id)

/-- The parameters of an endpoint, by name. -/
abbrev ParameterMap := OrderedMap String EndpointParameter

namespace Extraction

variable (context : Context)

/-- Reports that the index refuses the place of a template. -/
def recordIndexError (template : String) (error : PathIndexError) : Extraction Unit := do
  let diagnostic ← ofExcept (Diagnostic.ofIndexError template error)
  record diagnostic

/-- Reports a reference that leads nowhere. -/
def recordUnresolved {α : Type} (hint : String) (part : OrReference α) (error : ReferenceError) :
    Extraction Unit :=
  record (.unresolvedReference hint (part.target?.getD "") error.message)

/-! ## Parameters -/

/-- Takes up a parameter that could be looked up, the one with number `index` in its list. -/
def addParameter (template : String) (index : Nat) (parameter : Parameter)
    (collected : ParameterMap) : Extraction ParameterMap :=
  if Text.isBlankText parameter.name then do
    record (.unnamedParameter template index)
    return collected
  else match parameter.schema? with
  | none => do
    record (.parameterWithoutSchema template parameter.name)
    return collected
  | some node => do
    let name := Naming.pathParameter template parameter.name
    resolveBound context node name
    return collected.insert parameter.name
      ⟨parameter.name, name, parameter.location, .ofRequired parameter.required⟩

/-- Looks a parameter up and takes it up. -/
def collectParameter (template : String) (index : Nat) (parameter : OrReference Parameter)
    (collected : ParameterMap) : Extraction ParameterMap := do
  match ← ofExcept (context.document.parameter parameter) with
  | .error error =>
    recordUnresolved (template ++ " parameter #" ++ toString index) parameter error
    return collected
  | .ok found => addParameter context template index found collected

/-- Takes up the parameters of a list from number `index` on; the last of a name counts. -/
def collectParameters (template : String) :
    Nat → List (OrReference Parameter) → ParameterMap → Extraction ParameterMap
  | _, [], collected => return collected
  | index, parameter :: rest, collected => do
    if ← isCancelled then return collected
    else
      let collected ← collectParameter context template index parameter collected
      collectParameters template (index + 1) rest collected

/-! ## Schemas of bodies and responses -/

/-- Resolves the schemas of media types under names made from them; media types without a schema
are passed over. -/
def collectContent (nameOf : String → ModelName) :
    List (String × MediaType) → OrderedMap String ModelName →
      Extraction (OrderedMap String ModelName)
  | [], collected => return collected
  | (mediaType, media) :: rest, collected =>
    match media.schema with
    | none => collectContent nameOf rest collected
    | some node => do
      resolveBound context node (nameOf mediaType)
      collectContent nameOf rest (collected.insert mediaType (nameOf mediaType))

/-- The request bodies of an operation. -/
def collectRequestBodies (template : String) (method : HttpMethod) :
    Option (OrReference RequestBody) → Extraction (OrderedMap String ModelName)
  | none => return ∅
  | some body => do
    match ← ofExcept (context.document.requestBody body) with
    | .error error =>
      recordUnresolved (method.name ++ " " ++ template ++ " request body") body error
      return ∅
    | .ok found =>
      collectContent context (Naming.requestBody template method) found.content.entries ∅

/-- The responses of an endpoint, by status key. -/
abbrev ResponseMap := OrderedMap StatusKey EndpointResponse

/-- Takes up the response that is declared for a key. -/
def collectResponse (template : String) (method : HttpMethod) (key : String)
    (response : OrReference Response) (collected : ResponseMap) : Extraction ResponseMap :=
  match StatusKey.ofText? key with
  | none => do
    record (.invalidStatusKey template method key)
    return collected
  | some status => do
    match ← ofExcept (context.document.response response) with
    | .error error =>
      recordUnresolved (method.name ++ " " ++ template ++ " response " ++ status.text) response
        error
      return collected
    | .ok found =>
      let schemas ←
        collectContent context (Naming.response template method status) found.content.entries ∅
      return collected.insert status ⟨status, schemas⟩

/-- Takes up declared responses; the last of a status key counts. -/
def collectResponses (template : String) (method : HttpMethod) :
    List (String × OrReference Response) → ResponseMap → Extraction ResponseMap
  | [], collected => return collected
  | (key, response) :: rest, collected => do
    if ← isCancelled then return collected
    else
      let collected ← collectResponse context template method key response collected
      collectResponses template method rest collected

section Passes

variable (reactions : Reactions)

/-! ## Templates -/

/-- Lays the segments of a template into the index below a node. A template that names a parameter
twice, or that the index refuses, is reported and leads to no node. -/
def walkSegmentsWith (template : String) :
    List String → WalkedPath → Extraction (Option WalkedPath)
  | [], walked => return some walked
  | segment :: rest, walked => do
    if isParameterSegment segment then
      let name := parameterName segment
      if walked.parameters.contains name then
        record (.duplicateParameterSegment template segment)
        return none
      else
        match ← changeIndexWith reactions (·.getOrAdd walked.terminal segment .parameter) with
        | .error error =>
          recordIndexError template error
          return none
        | .ok id => walkSegmentsWith template rest ⟨id, walked.parameters.insert name id⟩
    else
      match ← changeIndexWith reactions (·.getOrAdd walked.terminal segment .constant) with
      | .error error =>
        recordIndexError template error
        return none
      | .ok id => walkSegmentsWith template rest ⟨id, walked.parameters⟩

/-- Lays a template into the index. -/
def walkTemplateWith (template : String) : Extraction (Option WalkedPath) :=
  walkSegmentsWith reactions template (templateSegments template) ⟨PathIndex.root, ∅⟩

/-! ## Endpoints -/

/-- Binds a path parameter to the node of the segment that bears its name. -/
def bindParameterWith (template : String) (method : HttpMethod) (walked : WalkedPath)
    (parameter : EndpointParameter) : Extraction Unit := do
  match walked.parameters.find? parameter.name with
  | none => record (.unboundPathParameter template method parameter.name)
  | some id =>
    match ← changeIndexWith reactions (·.bind id parameter.schema) with
    | .ok _ => pure ()
    | .error _ => record (.unboundPathParameter template method parameter.name)

/-- Binds the path parameters of an endpoint. -/
def bindParametersWith (template : String) (method : HttpMethod) (walked : WalkedPath) :
    List EndpointParameter → Extraction Unit
  | [] => pure ()
  | parameter :: rest => do
    if parameter.location = .path then bindParameterWith reactions template method walked parameter
    else pure ()
    bindParametersWith template method walked rest

/-- The endpoint of an operation: the parameters of its path, overridden by its own, request
bodies and responses. -/
def buildEndpointWith (template : String) (method : HttpMethod) (operation : Operation)
    (shared : ParameterMap) (walked : WalkedPath) : Extraction Endpoint := do
  let own ← collectParameters context template 0 operation.parameters ∅
  let parameters := shared.insertAll own.entries
  bindParametersWith reactions template method walked parameters.values
  let requestBodies ← collectRequestBodies context template method operation.requestBody
  let declared := (operation.responses.map SortedMap.entries).getD []
  let responses ← collectResponses context template method declared ∅
  return { method, parameters, requestBodies, responses }

/-- Whether a node has an endpoint for a method. -/
def hasEndpoint (id : Nat) (method : HttpMethod) : Extraction Bool := do
  return (((← get).index.part? id).bind fun part => part.endpoint? method).isSome

/-- Makes an operation an endpoint at the node of its template, unless that node has one for the
method. -/
def extractOperationWith (template : String) (shared : ParameterMap) (walked : WalkedPath)
    (method : HttpMethod) (operation : Operation) : Extraction Unit := do
  if ← hasEndpoint walked.terminal method then
    record (.duplicateMethod template method)
  else
    let endpoint ← buildEndpointWith context reactions template method operation shared walked
    match ← changeIndexWith reactions fun index =>
        (index.insertEndpoint walked.terminal endpoint).map (((), ·)) with
    | .ok () => pure ()
    | .error error => recordIndexError template error

/-- Takes up an operation that is given with the token of its method. One for a method that cannot be
declared is reported and passed over. -/
def extractMethodWith (template : String) (shared : ParameterMap) (walked : WalkedPath)
    (token : String) (operation : Operation) : Extraction Unit :=
  match HttpMethod.ofToken token with
  | .error error => do
    reactions.unsupported template error
    record (.unsupportedMethod template token)
  | .ok method => extractOperationWith context reactions template shared walked method operation

/-- Takes up operations, which are given with the tokens of their methods, until the extraction is
cancelled. -/
def extractOperationsWith (template : String) (shared : ParameterMap) (walked : WalkedPath) :
    List (String × Operation) → Extraction Unit
  | [] => pure ()
  | (token, operation) :: rest => do
    if ← isCancelled then return ()
    else
      extractMethodWith context reactions template shared walked token operation
      extractOperationsWith template shared walked rest

/-- Extracts the operations of a template. The parameters that they share are resolved first, even
if the template turns out to be unusable. -/
def extractPathWith (template : String) (item : PathItem) : Extraction Unit := do
  let shared ← collectParameters context template 0 item.parameters ∅
  match ← walkTemplateWith reactions template with
  | none => pure ()
  | some walked => extractOperationsWith context reactions template shared walked item.methods

/-- Extracts path templates in order, until the extraction is cancelled. -/
def extractPathsWith : List (String × PathItem) → Extraction Unit
  | [] => pure ()
  | (template, item) :: rest => do
    if ← isCancelled then return ()
    else
      extractPathWith context reactions template item
      extractPathsWith rest

end Passes

/-! ## The passes of an extraction -/

/-- Lays the segments of a template into the index below a node. -/
def walkSegments (template : String) (segments : List String) (walked : WalkedPath) :
    Extraction (Option WalkedPath) :=
  walkSegmentsWith .none template segments walked

/-- Lays a template into the index. -/
def walkTemplate (template : String) : Extraction (Option WalkedPath) :=
  walkTemplateWith .none template

/-- Binds a path parameter to the node of the segment that bears its name. -/
def bindParameter (template : String) (method : HttpMethod) (walked : WalkedPath)
    (parameter : EndpointParameter) : Extraction Unit :=
  bindParameterWith .none template method walked parameter

/-- Binds the path parameters of an endpoint. -/
def bindParameters (template : String) (method : HttpMethod) (walked : WalkedPath)
    (parameters : List EndpointParameter) : Extraction Unit :=
  bindParametersWith .none template method walked parameters

/-- The endpoint of an operation. -/
def buildEndpoint (template : String) (method : HttpMethod) (operation : Operation)
    (shared : ParameterMap) (walked : WalkedPath) : Extraction Endpoint :=
  buildEndpointWith context .none template method operation shared walked

/-- Makes an operation an endpoint. -/
def extractOperation (template : String) (shared : ParameterMap) (walked : WalkedPath)
    (method : HttpMethod) (operation : Operation) : Extraction Unit :=
  extractOperationWith context .none template shared walked method operation

/-- Makes operations endpoints, which are given with their methods. -/
def extractOperations (template : String) (shared : ParameterMap) (walked : WalkedPath)
    (operations : List (HttpMethod × Operation)) : Extraction Unit :=
  extractOperationsWith context .none template shared walked
    (operations.map fun entry => (entry.1.name, entry.2))

/-- The first operation is taken up for its method, and then the others. -/
theorem extractOperations_cons (template : String) (shared : ParameterMap) (walked : WalkedPath)
    (entry : HttpMethod × Operation) (rest : List (HttpMethod × Operation)) :
    extractOperations context template shared walked (entry :: rest) = (do
      if ← isCancelled then return ()
      else
        extractOperation context template shared walked entry.1 entry.2
        extractOperations context template shared walked rest) := by
  rw [extractOperations, List.map_cons, extractOperationsWith, extractMethodWith,
    HttpMethod.ofToken_name]
  rfl

/-- Extracts the operations of a template. -/
def extractPath (template : String) (item : PathItem) : Extraction Unit :=
  extractPathWith context .none template item

/-- Extracts path templates in order, until the extraction is cancelled. -/
def extractPaths (paths : List (String × PathItem)) : Extraction Unit :=
  extractPathsWith context .none paths

/-! ## Components -/

/-- Resolves component schemas that nothing has led to, until the extraction is cancelled. -/
def extractComponents : List (String × Node) → Extraction Unit
  | [] => pure ()
  | (id, node) :: rest => do
    if ← isCancelled then return ()
    else
      let _ ← ofResolver (resolveComponent context id node)
      extractComponents rest

end Extraction

end ApiCatalog
