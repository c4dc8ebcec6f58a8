import ApiCatalog.Proofs.Document.Declarations
import ApiCatalog.Proofs.Http.StatusKeys
import ApiCatalog.Report

set_option autoImplicit false

/-!
# The endpoints of a report

An endpoint is written as an object with its method, and with objects for its parameters, request
bodies and responses. Here such an object is read back. An endpoint whose status keys can be read is
what is read back of it, so that a report tells different endpoints apart.

## Main definitions

* `Report.readMapping?`: a map, read back from an object.
* `Report.readParameter?`, `Report.readResponse?`, `Report.readEndpoint?`: the parts of an endpoint,
  and the whole of it.
* `Endpoint.Legible`: the status keys of an endpoint can be read.

## Main results

* `Report.readMapping?_mapping`: a map is read back if its keys and its values are.
* `Report.readEndpoint?_endpoint`: a legible endpoint is read back.
* `Document.legible_endpoint`: the endpoint that is declared for an operation is legible.
-/

namespace ApiCatalog

namespace Report

/-! ## Readers -/

/-- The text that a value is. -/
def readText? : Json → Option String
  | .string text => some text
  | _ => none

/-- The text of a member. -/
def readTextOf? (name : String) (value : Json) : Option String := do
  readText? (← value.member? name)

/-- A map as it is read back from an object, if no key repeats. -/
def readMapping? {κ ν : Type} [DecidableEq κ] (key? : String → Option κ)
    (value? : Json → Option ν) : Json → Option (OrderedMap κ ν)
  | .object members => do
    let entries ← members.mapM fun member => do return (← key? member.1, ← value? member.2)
    if h : (entries.map Prod.fst).Nodup then some ⟨entries, h⟩ else none
  | _ => none

/-- The location of a label. -/
def readLocation? (text : String) : Option ParameterLocation :=
  ParameterLocation.all.find? fun location => location.label = text

/-- The modifier of a label. -/
def readModifier? (text : String) : Option Modifier :=
  [Modifier.required, .optional].find? fun modifier => modifier.label = text

/-- A parameter of an endpoint. -/
def readParameter? (value : Json) : Option EndpointParameter := do
  let name ← readTextOf? "name" value
  let schema ← readTextOf? "schema" value
  let location ← readLocation? (← readTextOf? "location" value)
  let modifier ← readModifier? (← readTextOf? "modifier" value)
  return ⟨name, schema, location, modifier⟩

/-- A response of an endpoint. -/
def readResponse? (value : Json) : Option EndpointResponse := do
  let status ← StatusKey.ofText? (← readTextOf? "status" value)
  let schemas ← readMapping? some readText? (← value.member? "schemas")
  return ⟨status, schemas⟩

/-- An endpoint. -/
def readEndpoint? (value : Json) : Option Endpoint := do
  let method ← HttpMethod.ofName? (← readTextOf? "method" value)
  let parameters ← readMapping? some readParameter? (← value.member? "parameters")
  let requestBodies ← readMapping? some readText? (← value.member? "request_bodies")
  let responses ← readMapping? StatusKey.ofText? readResponse? (← value.member? "responses")
  return ⟨method, parameters, requestBodies, responses⟩

end Report

/-- The status keys of an endpoint, and those of its responses, can be read. -/
structure Endpoint.Legible (endpoint : Endpoint) : Prop where
  keys : ∀ key ∈ endpoint.responses.keys, StatusKey.ofText? key.text = some key
  statuses : ∀ response ∈ endpoint.responses.values,
    StatusKey.ofText? response.status.text = some response.status

namespace Report

/-! ## What is read back -/

/-- A map is read back if its keys and its values are. -/
theorem readMapping?_mapping {κ ν : Type} [DecidableEq κ] {key? : String → Option κ}
    {value? : Json → Option ν} {name : κ → String} {value : ν → Json} {map : OrderedMap κ ν}
    (hkeys : ∀ key ∈ map.keys, key? (name key) = some key)
    (hvalues : ∀ member ∈ map.values, value? (value member) = some member) :
    readMapping? key? value? (mapping name value map) = some map := by
  obtain ⟨entries, hnodup⟩ := map
  have hentries : ((entries.map fun entry => (name entry.1, value entry.2)).mapM fun member => do
      return (← key? member.1, ← value? member.2)) = some entries := by
    change ∀ key ∈ entries.map Prod.fst, _ at hkeys
    change ∀ member ∈ entries.map Prod.snd, _ at hvalues
    clear hnodup
    induction entries with
    | nil => rfl
    | cons entry rest ih =>
      obtain ⟨hkey, hkeys⟩ := List.forall_mem_cons.1 hkeys
      obtain ⟨hvalue, hvalues⟩ := List.forall_mem_cons.1 hvalues
      rw [List.map_cons, List.mapM_cons, ih hkeys hvalues]
      simp [hkey, hvalue]
  rw [mapping, readMapping?, hentries]
  exact dif_pos hnodup

/-- A parameter is read back. -/
theorem readParameter?_parameter (entry : EndpointParameter) :
    readParameter? (parameter entry) = some entry := by
  obtain ⟨name, schema, location, modifier⟩ := entry
  cases location <;> cases modifier <;> rfl

/-- Texts are read back. -/
theorem readMapping?_texts (map : OrderedMap String ModelName) :
    readMapping? some readText? (mapping id .string map) = some map :=
  readMapping?_mapping (fun _ _ => rfl) fun _ _ => rfl

/-- A response is read back if its status key can be read. -/
theorem readResponse?_response {entry : EndpointResponse}
    (h : StatusKey.ofText? entry.status.text = some entry.status) :
    readResponse? (response entry) = some entry := by
  have hstatus : readTextOf? "status" (response entry) = some entry.status.text := rfl
  have hschemas : (response entry).member? "schemas" = some (mapping id .string entry.schemas) :=
    rfl
  simp [readResponse?, hstatus, hschemas, h, readMapping?_texts]

/-- The name of a method is read as that method. -/
theorem ofName?_name (method : HttpMethod) : HttpMethod.ofName? method.name = some method := by
  cases method <;> rfl

/-- **A legible endpoint is read back from a report.** -/
theorem readEndpoint?_endpoint {entry : Endpoint} (h : entry.Legible) :
    readEndpoint? (endpoint entry) = some entry := by
  have hmethod : readTextOf? "method" (endpoint entry) = some entry.method.name := rfl
  have hparameters : (endpoint entry).member? "parameters" =
      some (mapping id parameter entry.parameters) := rfl
  have hbodies : (endpoint entry).member? "request_bodies" =
      some (mapping id .string entry.requestBodies) := rfl
  have hresponses : (endpoint entry).member? "responses" =
      some (mapping StatusKey.text response entry.responses) := rfl
  have hread : readMapping? some readParameter? (mapping id parameter entry.parameters) =
      some entry.parameters :=
    readMapping?_mapping (fun _ _ => rfl) fun _ _ => readParameter?_parameter _
  have hread' : readMapping? StatusKey.ofText? readResponse?
      (mapping StatusKey.text response entry.responses) = some entry.responses :=
    readMapping?_mapping h.keys fun _ hmember => readResponse?_response (h.statuses _ hmember)
  simp [readEndpoint?, hmethod, hparameters, hbodies, hresponses, ofName?_name, hread, hread',
    readMapping?_texts]

end Report

/-! ## Declared endpoints -/

/-- **The endpoint that is declared for an operation is legible**: its status keys were read from
what the document has. -/
theorem Document.legible_endpoint (document : Document) (template : String) (item : PathItem)
    (method : HttpMethod) (operation : Operation) :
    (document.endpoint template item method operation).Legible := by
  have hread : ∀ declared ∈ document.declaredResponses operation.responseEntries,
      StatusKey.ofText? declared.1.text = some declared.1 := by
    -- a key is legible because it was read from a text
    intro declared hdeclared
    obtain ⟨entry, -, hentry⟩ := List.mem_filterMap.1 hdeclared
    unfold declaredResponse? at hentry
    split at hentry
    · cases hentry
    · next status hstatus =>
      split at hentry <;> cases hentry
      exact StatusKey.ofText?_text hstatus
  constructor
  case keys =>
    intro key hkey
    obtain ⟨_, hentry, rfl⟩ := List.mem_map.1 (OrderedMap.mem_keys_ofList.1 hkey)
    obtain ⟨declared, hdeclared, rfl⟩ := List.mem_map.1 hentry
    exact hread declared hdeclared
  case statuses =>
    intro response hresponse
    obtain ⟨_, hentry, rfl⟩ := List.mem_map.1 (OrderedMap.mem_values_ofList hresponse)
    obtain ⟨declared, hdeclared, rfl⟩ := List.mem_map.1 hentry
    exact hread declared hdeclared

end ApiCatalog
