import ApiCatalog.Proofs.Extraction.Growth
import ApiCatalog.Proofs.PathIndex.Contents
import ApiCatalog.Proofs.Resolution.Reports

set_option autoImplicit false

/-!
# The endpoints of an extraction

Unless the extraction is cancelled, the parts of an endpoint are collected as the document declares
them, and each schema that is asked for on the way is bound to its name, or a problem of a schema
was reported. So the index holds declared endpoints only, and refers to names that are bound.

## Main definitions

* `ExtractionState.AccountsFor`: a name is bound, or a problem of a schema was met.
* `ExtractionState.Collects`: what the collection of schemas does to the state.
* `Document.Declares`: an endpoint is the one that the document declares for an operation.
* `Document.Coherent`: the index and the bindings fit the document and each other.

## Main results

* `Extraction.buildEndpoint_ok`: an operation becomes the endpoint that is declared for it.
* `ApiCatalog.coherent_of_extract`: the index and the bindings are coherent at the end.
-/

namespace ApiCatalog

/-! ## Collecting schemas -/

/-- A name is bound, or a problem of a schema was met. -/
def ExtractionState.AccountsFor (state : ExtractionState) (name : ModelName) : Prop :=
  state.bindings.contains name = true ∨ state.resolver.Reports

/-- What the collection of schemas does: it resolves and binds the schemas that are asked for, and
leaves the index alone. -/
structure ExtractionState.Collects (requests : List (ModelName × Node))
    (state state' : ExtractionState) : Prop where
  index : state'.index = state.index
  grows : state.Grows state'
  accounted : state'.resolver.Accounted
  accountsFor : ∀ request ∈ requests, state'.AccountsFor request.1

namespace ExtractionState

variable {state state₁ state₂ : ExtractionState} {requests requests' : List (ModelName × Node)}

/-- What is accounted for stays so. -/
theorem AccountsFor.mono {name : ModelName} (h : state.AccountsFor name)
    (hgrows : state.Grows state₁) : state₁.AccountsFor name := by
  refine h.imp (fun hcontains => ?_) fun hreports => hreports.mono hgrows.resolver
  obtain ⟨references, hfind⟩ := Option.isSome_iff_exists.1 hcontains
  exact Option.isSome_iff_exists.2 ⟨references, hgrows.bindings name references hfind⟩

namespace Collects

/-- Nothing is collected where nothing is asked for. -/
theorem refl (haccounted : state.resolver.Accounted) : Collects [] state state :=
  ⟨rfl, .refl state, haccounted, fun _ h => nomatch h⟩

/-- One collection after another. -/
theorem trans (h₁ : Collects requests state state₁) (h₂ : Collects requests' state₁ state₂) :
    Collects (requests ++ requests') state state₂ where
  index := h₂.index.trans h₁.index
  grows := h₁.grows.trans h₂.grows
  accounted := h₂.accounted
  accountsFor := by
    intro request hrequest
    rcases List.mem_append.1 hrequest with hrequest | hrequest
    · exact (h₁.accountsFor request hrequest).mono h₂.grows
    · exact h₂.accountsFor request hrequest

/-- A diagnostic takes nothing away. -/
theorem record (haccounted : state.resolver.Accounted) (diagnostic : Diagnostic) :
    Collects [] state { state with resolver := state.resolver.record diagnostic } where
  index := rfl
  grows := ⟨.record _ _, fun _ _ h => h⟩
  accounted := fun id resolution hmemo hfailed =>
    (haccounted id resolution hmemo hfailed).mono (.record _ _)
  accountsFor := fun _ h => nomatch h

end Collects

end ExtractionState

namespace Extraction

open ExtractionState (Collects)

variable {document : Document} {cancelAt : Option Nat} {state state' : ExtractionState}
  {template : String} {method : HttpMethod}

/-- A schema that is asked for is bound, or a problem was met. -/
theorem resolveBound_collects {context : Context} {node : Node} {name : ModelName}
    (h : resolveBound context node name state = .ok () state')
    (hend : state'.resolver.cancelled = false) (haccounted : state.resolver.Accounted) :
    Collects [(name, node)] state state' := by
  have hgrows := grows_resolveBound h
  obtain ⟨resolution, resolver, hrun, rfl⟩ := resolveBound_ok h
  obtain ⟨haccounted', haccounts⟩ := hrun.accounts hend trivial haccounted
  refine ⟨rfl, hgrows, haccounted', fun request hrequest => ?_⟩
  obtain rfl := List.mem_singleton.1 hrequest
  cases hsucceeded : resolution.succeeded with
  | true =>
    left
    simp only [if_true]
    rw [OrderedMap.contains, OrderedMap.find?_insertNew, if_pos rfl]
    cases state.bindings.find? name <;> rfl
  | false => exact .inr (haccounts.reported hsucceeded)

/-- A parameter is collected as it is declared. -/
theorem collectParameter_ok {entry : OrReference Parameter} {index : Nat}
    {collected answer : ParameterMap}
    (h : collectParameter ⟨document, cancelAt⟩ template index entry collected state =
      .ok answer state')
    (hend : state'.resolver.cancelled = false) (haccounted : state.resolver.Accounted) :
    answer = collected.insertAll
        ((document.declaredParameters template [entry]).map DeclaredParameter.entry) ∧
      Collects (document.parameterRequests template [entry]) state state' := by
  obtain ⟨result, s, hresult, h⟩ := bind_eq_ok_iff.1 h
  obtain ⟨hfound, rfl⟩ := ofExcept_eq_ok_iff.1 hresult
  have hnone : document.declaredParameter? template entry = none →
      document.declaredParameters template [entry] = [] := fun h => by
    simp [Document.declaredParameters, h]
  cases result with
  | error error =>
    cases h
    have hempty := hnone (by simp [Document.declaredParameter?, hfound])
    rw [Document.parameterRequests, hempty]
    exact ⟨rfl, .record haccounted _⟩
  | ok found =>
    change addParameter ⟨document, cancelAt⟩ template index found collected state = _ at h
    unfold addParameter at h
    split at h
    · next hblank =>
      cases h
      have hempty := hnone (by simp [Document.declaredParameter?, hfound, hblank])
      rw [Document.parameterRequests, hempty]
      exact ⟨rfl, .record haccounted _⟩
    · next hblank =>
      cases hnode : found.schema? with
      | none =>
        rw [hnode] at h
        cases h
        have hempty := hnone (by simp [Document.declaredParameter?, hfound, hblank, hnode])
        rw [Document.parameterRequests, hempty]
        exact ⟨rfl, .record haccounted _⟩
      | some node =>
        rw [hnode] at h
        obtain ⟨_, s, hbound, h⟩ := bind_eq_ok_iff.1 h
        cases h
        have hone : document.declaredParameters template [entry] =
            [⟨node, found.name, Naming.pathParameter template found.name, found.location,
              .ofRequired found.required⟩] := by
          simp [Document.declaredParameters, Document.declaredParameter?, hfound, hblank, hnode]
        rw [Document.parameterRequests, hone]
        exact ⟨rfl, resolveBound_collects hbound hend haccounted⟩

/-- **Parameters are collected as they are declared**, after others. -/
theorem collectParameters_ok {entries : List (OrReference Parameter)} {index : Nat}
    {collected answer : ParameterMap}
    (hrequests : document.parameterRequests template entries ⊆ document.requests)
    (h : collectParameters ⟨document, cancelAt⟩ template index entries collected state =
      .ok answer state')
    (hend : state'.resolver.cancelled = false) (haccounted : state.resolver.Accounted) :
    answer = collected.insertAll
        ((document.declaredParameters template entries).map DeclaredParameter.entry) ∧
      Collects (document.parameterRequests template entries) state state' := by
  induction entries generalizing index collected state with
  | nil =>
    cases h
    exact ⟨rfl, .refl haccounted⟩
  | cons entry rest ih =>
    have hsplit : document.declaredParameters template (entry :: rest) =
        document.declaredParameters template [entry] ++
          document.declaredParameters template rest :=
      List.filterMap_append (l := [entry])
    rw [Document.parameterRequests_cons] at hrequests ⊢
    obtain ⟨_, hrest⟩ := List.append_subset.1 hrequests
    obtain ⟨_, _, hcancelled, h⟩ := bind_eq_ok_iff.1 h
    cases hcancelled
    split at h
    · next hcancelled =>
      cases h
      rw [hcancelled] at hend
      cases hend
    · obtain ⟨collected', s, hfirst, h⟩ := bind_eq_ok_iff.1 h
      have hs : s.resolver.cancelled = false :=
        (grows_collectParameters hrest h).not_cancelled hend
      obtain ⟨rfl, hcollects⟩ := collectParameter_ok hfirst hs haccounted
      obtain ⟨rfl, hcollects'⟩ := ih hrest h hcollects.accounted
      refine ⟨?_, hcollects.trans hcollects'⟩
      rw [hsplit, List.map_append, OrderedMap.insertAll_append]

/-- **The schemas of media types are collected as they are declared**, after others. -/
theorem collectContent_ok {nameOf : String → ModelName} {content : List (String × MediaType)}
    {collected answer : OrderedMap String ModelName}
    (hrequests : contentRequests nameOf content ⊆ document.requests)
    (h : collectContent ⟨document, cancelAt⟩ nameOf content collected state = .ok answer state')
    (hend : state'.resolver.cancelled = false) (haccounted : state.resolver.Accounted) :
    answer = collected.insertAll ((contentNodes content).map fun entry =>
        (entry.1, nameOf entry.1)) ∧
      Collects (contentRequests nameOf content) state state' := by
  induction content generalizing collected state with
  | nil =>
    cases h
    exact ⟨rfl, .refl haccounted⟩
  | cons entry rest ih =>
    obtain ⟨mediaType, media⟩ := entry
    rw [Document.contentRequests_cons] at hrequests ⊢
    obtain ⟨_, hrest⟩ := List.append_subset.1 hrequests
    rw [contentNodes, List.filterMap_cons]
    unfold collectContent at h
    cases hnode : media.schema with
    | none =>
      rw [hnode] at h
      exact ih hrest h haccounted
    | some node =>
      rw [hnode] at h
      obtain ⟨_, s, hbound, h⟩ := bind_eq_ok_iff.1 h
      have hs : s.resolver.cancelled = false :=
        ((congruence_grows document cancelAt s).collectContent hrest _ _ _ _ (.refl s) h
          ).not_cancelled hend
      have hcollects := resolveBound_collects hbound hs haccounted
      obtain ⟨rfl, hcollects'⟩ := ih hrest h hcollects.accounted
      exact ⟨rfl, hcollects.trans hcollects'⟩

/-- Request bodies are collected as they are declared. -/
theorem collectRequestBodies_ok {operation : Operation} {answer : OrderedMap String ModelName}
    (hrequests : contentRequests (Naming.requestBody template method)
      (document.bodyContent operation) ⊆ document.requests)
    (h : collectRequestBodies ⟨document, cancelAt⟩ template method operation.requestBody state =
      .ok answer state')
    (hend : state'.resolver.cancelled = false) (haccounted : state.resolver.Accounted) :
    answer = contentMap (Naming.requestBody template method) (document.bodyContent operation) ∧
      Collects (contentRequests (Naming.requestBody template method)
        (document.bodyContent operation)) state state' := by
  cases hbody : operation.requestBody with
  | none =>
    rw [hbody] at h
    cases h
    simp only [Document.bodyContent, hbody]
    exact ⟨rfl, .refl haccounted⟩
  | some body =>
    rw [hbody] at h
    obtain ⟨result, s, hresult, h⟩ := bind_eq_ok_iff.1 h
    obtain ⟨hfound, rfl⟩ := ofExcept_eq_ok_iff.1 hresult
    cases result with
    | error error =>
      cases h
      simp only [Document.bodyContent, hbody, hfound]
      exact ⟨rfl, .record haccounted _⟩
    | ok found =>
      rw [Document.bodyContent_of_found hbody hfound] at hrequests ⊢
      exact collectContent_ok hrequests h hend haccounted

/-- A response is collected as it is declared. -/
theorem collectResponse_ok {key : String} {response : OrReference Response}
    {collected answer : ResponseMap}
    (hrequests : document.responseRequests template method [(key, response)] ⊆ document.requests)
    (h : collectResponse ⟨document, cancelAt⟩ template method key response collected state =
      .ok answer state')
    (hend : state'.resolver.cancelled = false) (haccounted : state.resolver.Accounted) :
    answer = collected.insertAll ((document.declaredResponses [(key, response)]).map
        (Document.responseEntry template method)) ∧
      Collects (document.responseRequests template method [(key, response)]) state state' := by
  have hempty : document.declaredResponse? (key, response) = none →
      document.declaredResponses [(key, response)] = [] := fun h => by
    simp [Document.declaredResponses, h]
  unfold collectResponse at h
  cases hkey : StatusKey.ofText? key with
  | none =>
    rw [hkey] at h
    cases h
    rw [Document.responseRequests, hempty (by simp [Document.declaredResponse?, hkey])]
    exact ⟨rfl, .record haccounted _⟩
  | some status =>
    rw [hkey] at h
    obtain ⟨result, s, hresult, h⟩ := bind_eq_ok_iff.1 h
    obtain ⟨hfound, rfl⟩ := ofExcept_eq_ok_iff.1 hresult
    cases result with
    | error error =>
      cases h
      rw [Document.responseRequests, hempty (by simp [Document.declaredResponse?, hkey, hfound])]
      exact ⟨rfl, .record haccounted _⟩
    | ok found =>
      have hone : document.declaredResponses [(key, response)] =
          [(status, found.content.entries)] := by
        simp [Document.declaredResponses, Document.declaredResponse?, hkey, hfound]
      rw [Document.responseRequests_singleton hkey hfound] at hrequests ⊢
      obtain ⟨schemas, s, hcontent, h⟩ := bind_eq_ok_iff.1 h
      cases h
      obtain ⟨rfl, hcollects⟩ := collectContent_ok hrequests hcontent hend haccounted
      rw [hone]
      exact ⟨rfl, hcollects⟩

/-- **Responses are collected as they are declared**, after others. -/
theorem collectResponses_ok {entries : List (String × OrReference Response)}
    {collected answer : ResponseMap}
    (hrequests : document.responseRequests template method entries ⊆ document.requests)
    (h : collectResponses ⟨document, cancelAt⟩ template method entries collected state =
      .ok answer state')
    (hend : state'.resolver.cancelled = false) (haccounted : state.resolver.Accounted) :
    answer = collected.insertAll ((document.declaredResponses entries).map
        (Document.responseEntry template method)) ∧
      Collects (document.responseRequests template method entries) state state' := by
  induction entries generalizing collected state with
  | nil =>
    cases h
    exact ⟨rfl, .refl haccounted⟩
  | cons entry rest ih =>
    obtain ⟨key, response⟩ := entry
    have hsplit : document.declaredResponses ((key, response) :: rest) =
        document.declaredResponses [(key, response)] ++ document.declaredResponses rest :=
      List.filterMap_append (l := [(key, response)])
    rw [Document.responseRequests_cons] at hrequests ⊢
    obtain ⟨hfirstRequests, hrest⟩ := List.append_subset.1 hrequests
    obtain ⟨_, _, hcancelled, h⟩ := bind_eq_ok_iff.1 h
    cases hcancelled
    split at h
    · next hcancelled =>
      cases h
      rw [hcancelled] at hend
      cases hend
    · obtain ⟨collected', s, hfirst, h⟩ := bind_eq_ok_iff.1 h
      have hs : s.resolver.cancelled = false :=
        ((congruence_grows document cancelAt s).collectResponses hrest (fun _ _ => trivial)
          _ _ _ _ (.refl s) h).not_cancelled hend
      obtain ⟨rfl, hcollects⟩ := collectResponse_ok hfirstRequests hfirst hs haccounted
      obtain ⟨rfl, hcollects'⟩ := ih hrest h hcollects.accounted
      refine ⟨?_, hcollects.trans hcollects'⟩
      rw [hsplit, List.map_append, OrderedMap.insertAll_append]

end Extraction

/-! ## Endpoints -/

namespace Document

/-- An endpoint is the one that the document declares for an operation. -/
def Declares (document : Document) (endpoint : Endpoint) : Prop :=
  ∃ template item operation, (template, item) ∈ document.pathEntries ∧
    (endpoint.method, operation) ∈ item.operations ∧
    endpoint = document.endpoint template item endpoint.method operation

/-- The index and the bindings fit the document and each other: the endpoints are those that are
declared, and what they and the bound parameters refer to is accounted for, like certain other
names. -/
structure Coherent (document : Document) (names : List ModelName) (state : ExtractionState) :
    Prop where
  accounted : state.resolver.Accounted
  index : state.index.Holds
    (fun endpoint => document.Declares endpoint ∧
      ∀ name ∈ endpoint.references, state.AccountsFor name)
    state.AccountsFor
  names : ∀ name ∈ names, state.AccountsFor name

/-- A state is coherent unless the extraction is cancelled. -/
def CoherentUnlessCancelled (document : Document) (names : List ModelName)
    (state : ExtractionState) : Prop :=
  state.resolver.cancelled = false → document.Coherent names state

end Document

namespace Document

open ExtractionState (Collects)

variable {document : Document} {names names' : List ModelName} {state state' : ExtractionState}

namespace Coherent

/-- Fewer names are accounted for as well. -/
theorem mono (h : document.Coherent names state) (hnames : names' ⊆ names) :
    document.Coherent names' state :=
  ⟨h.accounted, h.index, fun name hname => h.names name (hnames hname)⟩

/-- After a collection of schemas, their names are accounted for as well. -/
theorem collect {requests : List (ModelName × Node)} (h : document.Coherent names state)
    (hcollects : Collects requests state state') :
    document.Coherent (names ++ requests.map Prod.fst) state' where
  accounted := hcollects.accounted
  index := by
    rw [hcollects.index]
    refine h.index.mono (fun endpoint hendpoint => ⟨hendpoint.1, fun name hname => ?_⟩) ?_
    · exact (hendpoint.2 name hname).mono hcollects.grows
    · exact fun _ hschema => hschema.mono hcollects.grows
  names := by
    intro name hname
    rcases List.mem_append.1 hname with hname | hname
    · exact (h.names name hname).mono hcollects.grows
    · obtain ⟨request, hrequest, rfl⟩ := List.mem_map.1 hname
      exact hcollects.accountsFor request hrequest

/-- A state stays coherent when its index is replaced by one that fits. -/
theorem withIndex (h : document.Coherent names state) {index : PathIndex}
    (hindex : index.Holds
      (fun endpoint => document.Declares endpoint ∧
        ∀ name ∈ endpoint.references, state.AccountsFor name)
      state.AccountsFor) : document.Coherent names { state with index } :=
  ⟨h.accounted, hindex, h.names⟩

end Coherent

end Document

namespace Extraction

variable {document : Document} {cancelAt : Option Nat} {names : List ModelName}
  {template : String}

/-- Diagnostics keep the state coherent. -/
theorem coherent_record (diagnostic : Diagnostic) :
    Preserves (document.CoherentUnlessCancelled names) (record diagnostic) := by
  rintro state answer state' hcoherent hstep hend
  cases hstep
  have h := hcoherent hend
  simpa using h.collect (.record h.accounted diagnostic)

/-- So does the report that the index refuses a template. -/
theorem coherent_recordIndexError (error : PathIndexError) :
    Preserves (document.CoherentUnlessCancelled names) (recordIndexError template error) :=
  (Preserves.ofExcept _).bind fun _ => coherent_record _

/-- A node that is looked up or added holds nothing new. -/
theorem coherent_getOrAdd (parent : Nat) (segment : String) (kind : SegmentKind) :
    Preserves (document.CoherentUnlessCancelled names)
      (changeIndex (·.getOrAdd parent segment kind)) := by
  intro state answer state' hcoherent hstep hend
  rcases changeIndex_ok hstep with ⟨-, -, rfl⟩ | ⟨id, index, hadd, -, rfl⟩
  · exact hcoherent hend
  · exact (hcoherent hend).withIndex ((hcoherent hend).index.getOrAdd hadd)

/-- Laying segments into the index keeps the state coherent. -/
theorem coherent_walkSegments (segments : List String) (walked : WalkedPath) :
    Preserves (document.CoherentUnlessCancelled names)
      (walkSegments template segments walked) :=
  preserves_walkSegments coherent_record (fun _ _ _ _ => coherent_getOrAdd _ _ _) walked

/-- A path parameter may be bound to a schema that is accounted for. -/
theorem coherent_bindParameter {method : HttpMethod} {walked : WalkedPath}
    {parameter : EndpointParameter} (hparameter : parameter.schema ∈ names) :
    Preserves (document.CoherentUnlessCancelled names)
      (bindParameter template method walked parameter) := by
  unfold bindParameter bindParameterWith
  cases walked.parameters.find? parameter.name with
  | none => exact coherent_record _
  | some id =>
    have hbind : Preserves (document.CoherentUnlessCancelled names)
        (changeIndex (·.bind id parameter.schema)) := by
      intro state answer state' hcoherent hstep hend
      rcases changeIndex_ok hstep with ⟨-, -, rfl⟩ | ⟨bound, index, hbind, -, rfl⟩
      · exact hcoherent hend
      · have h := hcoherent hend
        exact h.withIndex (h.index.bind (h.names _ hparameter) hbind)
    refine hbind.bind fun found => ?_
    cases found with
    | error error => exact coherent_record _
    | ok bound => exact .pure _

/-- Path parameters may be bound to schemas that are accounted for. -/
theorem coherent_bindParameters {method : HttpMethod} {walked : WalkedPath}
    {parameters : List EndpointParameter}
    (hparameters : ∀ parameter ∈ parameters, parameter.schema ∈ names) :
    Preserves (document.CoherentUnlessCancelled names)
      (bindParameters template method walked parameters) := by
  induction parameters with
  | nil => exact .pure _
  | cons parameter rest ih =>
    have hrest := ih fun other hother => hparameters other (List.mem_cons_of_mem _ hother)
    rw [bindParameters, bindParametersWith]
    refine .ite (Preserves.bind ?_ fun _ => hrest) ((Preserves.pure ()).bind fun _ => hrest)
    exact coherent_bindParameter (hparameters parameter List.mem_cons_self)

variable {state state' : ExtractionState} {item : PathItem} {method : HttpMethod}
  {operation : Operation} {walked : WalkedPath}

/-- **An operation becomes the endpoint that is declared for it**, and what the endpoint refers to
is accounted for.

**Proof sketch.** The parts are collected one after the other. That none of these steps is cut short
is known from the end backwards, since a cancellation is never taken back. -/
theorem buildEndpoint_ok {endpoint : Endpoint}
    (hrequests : document.operationRequests template method operation ⊆ document.requests)
    (h : buildEndpoint ⟨document, cancelAt⟩ template method operation
      (document.parameterMap template item.parameters) walked state = .ok endpoint state')
    (hend : state'.resolver.cancelled = false) (hcoherent : document.Coherent names state)
    (hshared : ∀ request ∈ document.parameterRequests template item.parameters,
      request.1 ∈ names) :
    endpoint = document.endpoint template item method operation ∧
      document.Coherent (names ++ endpoint.references) state' := by
  have hgrowth := congruence_grows document cancelAt
  rw [Document.operationRequests, List.append_subset, List.append_subset] at hrequests
  obtain ⟨hparameters, hbodies, hresponses⟩ := hrequests
  obtain ⟨own, s₁, hown, h⟩ := bind_eq_ok_iff.1 h
  obtain ⟨_, s₂, hbind, h⟩ := bind_eq_ok_iff.1 h
  obtain ⟨requestBodies, s₃, hbodiesRun, h⟩ := bind_eq_ok_iff.1 h
  obtain ⟨responses, s₄, hresponsesRun, h⟩ := bind_eq_ok_iff.1 h
  cases h
  have hend₃ : s₃.resolver.cancelled = false :=
    ((hgrowth s₃).collectResponses hresponses (fun _ _ => trivial) _ _ _ _ (.refl s₃)
      hresponsesRun).not_cancelled hend
  have hend₂ : s₂.resolver.cancelled = false :=
    ((hgrowth s₂).collectRequestBodies hbodies (fun _ _ => trivial) _ _ _ (.refl s₂)
      hbodiesRun).not_cancelled hend₃
  have hend₁ : s₁.resolver.cancelled = false :=
    ((hgrowth s₁).bindParameters _ _ _ _ _ _ _ (.refl s₁) hbind).not_cancelled hend₂
  obtain ⟨rfl, hcollects₁⟩ := collectParameters_ok hparameters hown hend₁ hcoherent.accounted
  have hcoherent₁ := hcoherent.collect hcollects₁
  have hcoherent₂ := coherent_bindParameters (fun parameter hparameter => ?known) s₁ _ s₂
    (fun _ => hcoherent₁) hbind hend₂
  obtain ⟨rfl, hcollects₃⟩ :=
    collectRequestBodies_ok hbodies hbodiesRun hend₃ hcoherent₂.accounted
  have hcoherent₃ := hcoherent₂.collect hcollects₃
  obtain ⟨rfl, hcollects₄⟩ :=
    collectResponses_ok hresponses hresponsesRun hend hcoherent₃.accounted
  refine ⟨rfl, (hcoherent₃.collect hcollects₄).mono fun name hname => ?subset⟩
  case known =>
    obtain ⟨declared, hdeclared, rfl⟩ := Document.exists_declared_of_mem_parametersOf hparameter
    rcases List.mem_append.1 (Document.request_of_declared? hdeclared) with hnode | hnode
    · exact List.mem_append.2 (.inl (hshared _ hnode))
    · exact List.mem_append.2 (.inr (List.mem_map.2 ⟨_, hnode, rfl⟩))
  case subset =>
    simp only [List.mem_append]
    rcases List.mem_append.1 hname with hname | hname
    · exact .inl (.inl (.inl hname))
    · obtain ⟨node, hnode⟩ := Document.exists_request_of_mem_references hname
      simp only [Document.operationRequests, List.mem_append] at hnode
      rcases hnode with hnode | hnode | hnode | hnode
      · exact .inl (.inl (.inl (hshared _ hnode)))
      · exact .inl (.inl (.inr (List.mem_map.2 ⟨_, hnode, rfl⟩)))
      · exact .inl (.inr (List.mem_map.2 ⟨_, hnode, rfl⟩))
      · exact .inr (List.mem_map.2 ⟨_, hnode, rfl⟩)

/-- An operation that becomes an endpoint, or is reported, keeps the state coherent. -/
theorem coherent_extractOperation (hpath : (template, item) ∈ document.pathEntries)
    (hoperation : (method, operation) ∈ item.operations)
    (hshared : ∀ request ∈ document.parameterRequests template item.parameters,
      request.1 ∈ names) :
    Preserves (document.CoherentUnlessCancelled names)
      (extractOperation ⟨document, cancelAt⟩ template
        (document.parameterMap template item.parameters) walked method operation) := by
  have hrequests : document.operationRequests template method operation ⊆ document.requests :=
    List.Subset.trans (Document.operationRequests_subset hoperation)
      (Document.pathRequests_subset hpath)
  have hknown : Preserves (document.CoherentUnlessCancelled names)
      (hasEndpoint walked.terminal method) := Preserves.get.bind fun _ => .pure _
  refine hknown.bind fun _ => .ite (coherent_record _) ?_
  intro state answer state' hcoherent h hend
  obtain ⟨endpoint, s₁, hbuild, hrest⟩ := bind_eq_ok_iff.1 h
  obtain ⟨found, s₂, hchange, hlast⟩ := bind_eq_ok_iff.1 hrest
  have hstart : s₁.resolver.cancelled = false → document.Coherent names state := fun hend₁ =>
    hcoherent ((grows_buildEndpoint hrequests hbuild).not_cancelled hend₁)
  have hbuilt : s₁.resolver.cancelled = false →
      endpoint = document.endpoint template item method operation ∧
        document.Coherent (names ++ endpoint.references) s₁ := fun hend₁ =>
    buildEndpoint_ok hrequests hbuild hend₁ (hstart hend₁) hshared
  rcases changeIndex_ok hchange with ⟨error, rfl, rfl⟩ | ⟨value, index, hinsert, rfl, rfl⟩
  · refine coherent_recordIndexError error s₂ answer state' (fun hend₁ => ?_) hlast hend
    exact (hbuilt hend₁).2.mono (List.subset_append_left _ _)
  · cases hlast
    obtain ⟨rfl, hcoherent₁⟩ := hbuilt hend
    have hdeclared : document.Declares (document.endpoint template item method operation) :=
      ⟨template, item, operation, hpath, hoperation, rfl⟩
    refine (hcoherent₁.mono (List.subset_append_left _ _)).withIndex ?_
    cases hinserted : s₁.index.insertEndpoint walked.terminal
        (document.endpoint template item method operation) with
    | error error =>
      rw [hinserted] at hinsert
      cases hinsert
    | ok inserted =>
      rw [hinserted] at hinsert
      cases hinsert
      refine hcoherent₁.index.insertEndpoint ⟨hdeclared, fun name hname => ?_⟩ hinserted
      exact hcoherent₁.names name (List.mem_append.2 (.inr hname))

/-- Operations of a path keep the state coherent. -/
theorem coherent_extractOperations {operations : List (HttpMethod × Operation)}
    (hpath : (template, item) ∈ document.pathEntries) (hoperations : operations ⊆ item.operations)
    (hshared : ∀ request ∈ document.parameterRequests template item.parameters,
      request.1 ∈ names) :
    Preserves (document.CoherentUnlessCancelled names)
      (extractOperations ⟨document, cancelAt⟩ template
        (document.parameterMap template item.parameters) walked operations) := by
  induction operations with
  | nil => exact .pure _
  | cons entry rest ih =>
    obtain ⟨hfirst, hrest⟩ := List.cons_subset.1 hoperations
    rw [extractOperations_cons]
    refine Preserves.isCancelled.bind fun _ => .ite (.pure _) ?_
    exact (coherent_extractOperation hpath hfirst hshared).bind fun _ => ih hrest

/-- A path of the document keeps the state coherent. -/
theorem coherent_extractPath (hpath : (template, item) ∈ document.pathEntries) :
    Preserves (document.CoherentUnlessCancelled names)
      (extractPath ⟨document, cancelAt⟩ template item) := by
  have hparameters := (List.append_subset.1 (Document.pathRequests_subset hpath)).1
  intro state answer state' hcoherent h hend
  obtain ⟨shared, s₁, hshared, hrest⟩ := bind_eq_ok_iff.1 h
  obtain ⟨walked, s₂, hwalk, hlast⟩ := bind_eq_ok_iff.1 hrest
  have hend₂ : s₂.resolver.cancelled = false := by
    cases walked with
    | none =>
      cases hlast
      exact hend
    | some walked =>
      exact (grows_extractOperations hpath (List.Subset.refl _) hlast).not_cancelled hend
  have hend₁ : s₁.resolver.cancelled = false :=
    (grows_walkSegments document cancelAt hwalk).not_cancelled hend₂
  have hstart := hcoherent ((grows_collectParameters hparameters hshared).not_cancelled hend₁)
  obtain ⟨rfl, hcollects⟩ := collectParameters_ok hparameters hshared hend₁ hstart.accounted
  have hcoherent₁ := hstart.collect hcollects
  have hcoherent₂ := coherent_walkSegments _ _ s₁ _ s₂ (fun _ => hcoherent₁) hwalk hend₂
  cases walked with
  | none =>
    cases hlast
    exact hcoherent₂.mono (List.subset_append_left _ _)
  | some walked =>
    have hshared : ∀ request ∈ document.parameterRequests template item.parameters,
        request.1 ∈ names ++ (document.parameterRequests template item.parameters).map Prod.fst :=
      fun request hrequest =>
        List.mem_append.2 (.inr (List.mem_map.2 ⟨request, hrequest, rfl⟩))
    have hcoherent' := coherent_extractOperations hpath (List.Subset.refl _) hshared s₂ answer
      state' (fun _ => hcoherent₂) hlast hend
    exact hcoherent'.mono (List.subset_append_left _ _)

/-- Paths of the document keep the state coherent. -/
theorem coherent_extractPaths {paths : List (String × PathItem)}
    (hpaths : paths ⊆ document.pathEntries) :
    Preserves (document.CoherentUnlessCancelled names)
      (extractPaths ⟨document, cancelAt⟩ paths) := by
  induction paths with
  | nil => exact .pure _
  | cons entry rest ih =>
    obtain ⟨template, item⟩ := entry
    obtain ⟨hfirst, hrest⟩ := List.cons_subset.1 hpaths
    refine Preserves.isCancelled.bind fun _ => .ite (.pure _) ?_
    exact (coherent_extractPath hfirst).bind fun _ => ih hrest

/-- The resolution of a component keeps the state coherent. -/
theorem coherent_resolveComponent {context : Context} (id : String) (node : Node) :
    Preserves (document.CoherentUnlessCancelled names)
      (ofResolver (resolveComponent context id node)) := by
  intro state answer state' hcoherent h hend
  obtain ⟨hgrows, hindex, -⟩ := grows_resolveComponent h
  have hstart := hcoherent (hgrows.not_cancelled hend)
  have haccounted : state'.resolver.Accounted := by
    obtain ⟨resolver, hcomponent, rfl⟩ := ofResolver_ok h
    rcases resolveComponent_ok hcomponent with ⟨-, -, rfl⟩ | ⟨resolution, s, -, -, -, hrun, rfl⟩
    · exact hstart.accounted
    · have hend' : s.cancelled = false := by simpa using hend
      obtain ⟨haccounted, haccounts⟩ := hrun.accounts hend' trivial hstart.accounted
      exact haccounted.memoise haccounts.reported
  have hcollects : ExtractionState.Collects [] state state' :=
    ⟨hindex, hgrows, haccounted, fun _ hrequest => nomatch hrequest⟩
  simpa using hstart.collect hcollects

end Extraction

/-- **The index and the bindings are coherent at the end of an extraction** that was not
cancelled. -/
theorem coherent_of_extract {document : Document} {options : Options} {state : ExtractionState}
    (h : extract document options = .ok state) (hend : state.resolver.cancelled = false) :
    document.Coherent [] state := by
  obtain ⟨s, hpaths, hcomponents⟩ := extract_passes h
  have hinit : document.CoherentUnlessCancelled [] options.initialState := fun _ =>
    ⟨fun _ _ hmemo => (nomatch hmemo), .empty, fun _ hname => (nomatch hname)⟩
  have hs : document.CoherentUnlessCancelled [] s :=
    Extraction.coherent_extractPaths (List.Subset.refl _) _ _ _ hinit hpaths
  rcases hcomponents with ⟨-, hcomponents⟩ | ⟨-, rfl⟩
  · exact Extraction.preserves_extractComponents
      (fun entry _ => Extraction.coherent_resolveComponent entry.1 entry.2) _ _ _ hs hcomponents
      hend
  · exact hs hend

end ApiCatalog
