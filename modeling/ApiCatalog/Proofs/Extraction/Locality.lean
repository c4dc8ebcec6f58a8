import ApiCatalog.Proofs.Extraction.Visits

set_option autoImplicit false

/-!
# What an endpoint depends on

A path is taken up while resolution goes on and the index grows, but the endpoints that are stored
for it are made of the path and of the parameters, request bodies and responses that it refers to.
So two documents that agree on these agree on the endpoints, however their other paths and their
schemas turn out.

## Main definitions

* `Document.SharesParts`: two documents have the same parameters, request bodies and responses.
* `Extraction.Stores`: a path puts an endpoint at a node when it has its turn.

## Main results

* `Document.SharesParts.endpoint_eq`: they declare the same endpoints for the same path.
* `Extraction.exists_stores`: each endpoint at the end of a pass was stored by a path.
* `ApiCatalog.endpoint_eq_of_stores`: what is stored for a path that two documents have in common.
-/

namespace ApiCatalog

/-! ## Parts in common -/

/-- Two documents have the same components of those kinds that operations refer to. -/
structure Document.SharesParts (document document' : Document) : Prop where
  parameters : document.allComponents.parameters = document'.allComponents.parameters
  requestBodies : document.allComponents.requestBodies = document'.allComponents.requestBodies
  responses : document.allComponents.responses = document'.allComponents.responses

namespace Document.SharesParts

variable {document document' : Document} (h : document.SharesParts document')

include h

/-- Parameters are looked up alike. -/
theorem parameter_eq : document.parameter = document'.parameter := by
  funext entry
  rw [parameter, parameter, h.parameters]

/-- Request bodies are looked up alike. -/
theorem requestBody_eq : document.requestBody = document'.requestBody := by
  funext body
  rw [requestBody, requestBody, h.requestBodies]

/-- Responses are looked up alike. -/
theorem response_eq : document.response = document'.response := by
  funext entry
  rw [response, response, h.responses]

/-- The parameters of a list are declared alike. -/
theorem parameterMap_eq : document.parameterMap = document'.parameterMap := by
  funext template entries
  have hdeclared :
      document.declaredParameter? template = document'.declaredParameter? template := by
    funext entry
    rw [declaredParameter?, declaredParameter?, h.parameter_eq]
  rw [parameterMap, parameterMap, declaredParameters, declaredParameters, hdeclared]

/-- The responses of a list are declared alike. -/
theorem responseMap_eq : document.responseMap = document'.responseMap := by
  funext template method entries
  have hdeclared : document.declaredResponse? = document'.declaredResponse? := by
    funext entry
    rw [declaredResponse?, declaredResponse?, h.response_eq]
  rw [responseMap, responseMap, declaredResponses, declaredResponses, hdeclared]

/-- **The same endpoints are declared for the same path.** -/
theorem endpoint_eq : document.endpoint = document'.endpoint := by
  funext template item method operation
  rw [endpoint, endpoint, parametersOf, parametersOf, bodyContent, bodyContent, h.parameterMap_eq,
    h.requestBody_eq, h.responseMap_eq]

end Document.SharesParts

/-! ## Stored endpoints -/

namespace Extraction

/-- A path of a document stores an endpoint in an extraction: in the state that the earlier paths
have left, some node has no endpoint for the method; after the turn of the path the extraction is
not cancelled, and the node has this endpoint. -/
def Stores (context : Context) (start : ExtractionState) (template : String) (item : PathItem)
    (endpoint : Endpoint) : Prop :=
  ∃ earlier later before after id,
    context.document.pathEntries = earlier ++ (template, item) :: later ∧
    extractPaths context earlier start = .ok () before ∧
    extractPath context template item before = .ok () after ∧
    after.resolver.cancelled = false ∧
    before.index.endpointAt id endpoint.method = none ∧
    after.index.endpointAt id endpoint.method = some endpoint

/-- The endpoint for a method that a path stores at a node after other paths, if it does. -/
def stored? (context : Context) (start : ExtractionState) (earlier : List (String × PathItem))
    (template : String) (item : PathItem) (id : Nat) (method : HttpMethod) : Option Endpoint :=
  match extractPaths context earlier start with
  | .error _ _ => none
  | .ok _ before =>
    match extractPath context template item before with
    | .error _ _ => none
    | .ok _ after =>
      if after.resolver.cancelled = true ∨ (before.index.endpointAt id method).isSome = true then
        none
      else after.index.endpointAt id method

variable {document : Document} {cancelAt : Option Nat} {template : String} {item : PathItem}
  {endpoint : Endpoint} {start final : ExtractionState}

/-- What a path stores after the paths before it, it stores in the extraction. -/
theorem stores_of_stored? {context : Context} {earlier later : List (String × PathItem)} {id : Nat}
    (hsplit : context.document.pathEntries = earlier ++ (template, item) :: later)
    (h : stored? context start earlier template item id endpoint.method = some endpoint) :
    Stores context start template item endpoint := by
  unfold stored? at h
  split at h
  · cases h
  · next before hbefore =>
    split at h
    · cases h
    · next after hturn =>
      split at h
      · cases h
      · next hnot =>
        simp only [not_or, Bool.not_eq_true, Option.isSome_eq_false_iff, Option.isNone_iff_eq_none]
          at hnot
        exact ⟨earlier, later, before, after, id, hsplit, hbefore, hturn, hnot.1, hnot.2, h⟩

/-- What a path stores it has stored after its turn, which is the only one. -/
theorem Stores.of_turn {earlier later : List (String × PathItem)}
    {before after : ExtractionState}
    (hsplit : document.pathEntries = earlier ++ (template, item) :: later)
    (hbefore : extractPaths ⟨document, cancelAt⟩ earlier start = .ok () before)
    (hturn : extractPath ⟨document, cancelAt⟩ template item before = .ok () after)
    (h : Stores ⟨document, cancelAt⟩ start template item endpoint) :
    ∃ id, before.index.endpointAt id endpoint.method = none ∧
      after.index.endpointAt id endpoint.method = some endpoint := by
  obtain ⟨earlier', later', before', after', id, hsplit', hbefore', hturn', -, hnone, hsome⟩ := h
  have hsame : earlier ++ (template, item) :: later = earlier' ++ (template, item) :: later' :=
    hsplit.symm.trans hsplit'
  have hdistinct : (earlier ++ (template, item) :: later).Nodup :=
    hsplit ▸ document.nodup_templates.of_map _
  obtain ⟨hother, -⟩ := List.nodup_cons.1 (List.nodup_middle.1 hdistinct)
  rw [List.mem_append, not_or] at hother
  obtain ⟨rfl, -, -⟩ := (List.append_cons_inj_of_notMem hother.1 hother.2).1 hsame
  cases hbefore.symm.trans hbefore'
  cases hturn.symm.trans hturn'
  exact ⟨id, hnone, hsome⟩

/-- **What a path stores is declared**: it is the endpoint of the operation that the path has for
the method.

**Proof sketch.** The paths before leave an index that is made up of them, into which the path
advances. Where there was no endpoint, the one that is there afterwards is what the path
contributes. -/
theorem Stores.declared {done : List (String × PathItem)} (hstart : document.Indexed done start)
    (h : Stores ⟨document, cancelAt⟩ start template item endpoint) :
    ∃ operation, item.operation? endpoint.method = some operation ∧
      endpoint = document.endpoint template item endpoint.method operation := by
  obtain ⟨earlier, later, before, after, id, hsplit, hbefore, hturn, hend, hnone, hsome⟩ := h
  have hmem : (template, item) ∈ document.pathEntries := by simp [hsplit]
  have hearlier : earlier ⊆ document.pathEntries := fun _ h => by simp [hsplit, h]
  obtain ⟨-, taken, hindexed, -, -⟩ :=
    (extractPaths_yields (.any _) hearlier hstart).answer hbefore
  have hadvances := (extractPath_yields (.any _) hmem hindexed.spans.proper
    hindexed.coherent).answer hturn
  rw [hadvances.endpointAt hend, hnone, Option.none_or, Document.contribution] at hsome
  split at hsome
  · obtain ⟨operation, hoperation, hendpoint⟩ := Option.map_eq_some_iff.1 hsome
    exact ⟨operation, hoperation, hendpoint.symm⟩
  · cases hsome

/-- In an extraction that stores an endpoint after some passes, the index was made up of the paths
then. -/
theorem Stores.indexed {turns : List Turn} {resolver : ResolverState}
    (hresolver : Session ⟨document, cancelAt⟩ turns resolver)
    (hstart : Rounds ⟨document, cancelAt⟩ resolver start)
    (h : Stores ⟨document, cancelAt⟩ start template item endpoint) :
    ∃ done, document.Indexed done start := by
  obtain ⟨earlier, later, before, after, id, hsplit, hbefore, hturn, hend, -, -⟩ := h
  have hmem : (template, item) ∈ document.pathEntries := by simp [hsplit]
  have hearlier : earlier ⊆ document.pathEntries := fun _ h => by simp [hsplit, h]
  have hgrows : start.Grows after :=
    (grows_extractPaths hearlier hbefore).trans (grows_extractPath hmem hturn)
  exact (hstart.indexed hresolver (hgrows.not_cancelled hend)).elim (⟨_, ·⟩) (⟨_, ·⟩)

/-- **Each endpoint at the end of a pass was stored by a path** of the document. -/
theorem exists_stores (hstart : document.Indexed [] start)
    (hrun : extractPaths ⟨document, cancelAt⟩ document.pathEntries start = .ok () final)
    (hend : final.resolver.cancelled = false) {id : Nat} {method : HttpMethod}
    (hendpoint : final.index.endpointAt id method = some endpoint) :
    ∃ template item, Stores ⟨document, cancelAt⟩ start template item endpoint := by
  obtain ⟨-, taken, hindexed, -, hall⟩ :=
    (extractPaths_yields (.any _) (List.Subset.refl _) hstart).answer hrun
  obtain rfl := hall hend
  rw [List.nil_append] at hindexed
  have hfirst := hindexed.endpointAt hend id method
  rw [hendpoint, eq_comm] at hfirst
  obtain ⟨earlier, ⟨template, item⟩, later, hsplit, hfound, hothers⟩ :=
    List.findSome?_eq_some_iff.1 hfirst
  have hpath : (template, item) ∈ document.pathEntries := by simp [hsplit]
  obtain ⟨before, after, hbefore, hearlier, hactive, hturn, hgrows, hextends, -⟩ :=
    exists_turn_of_path hsplit hstart hrun hend
  have hactive' := hgrows.not_cancelled hend
  have hadvances := (extractPath_yields (.any _) hpath hearlier.spans.proper
    hearlier.coherent).answer hturn
  obtain ⟨middle, hlaid, houtline⟩ := hadvances.laid
  have hkept : before.index.Extends final.index :=
    (hlaid.toExtends.trans houtline.toExtends).trans hextends
  have hnone : before.index.endpointAt id method = none := by
    rw [hearlier.endpointAt hactive, List.findSome?_eq_none_iff]
    intro entry hentry
    rw [← Document.contribution_of_extends hkept
      (hearlier.spans.found entry.1 (List.mem_map_of_mem hentry))]
    exact hothers entry hentry
  have hsame : document.contribution final.index id method (template, item) =
      document.contribution after.index id method (template, item) :=
    @Document.contribution_of_extends document _ _ hextends (template, item) hadvances.found id
      method
  have hsome : after.index.endpointAt id method = some endpoint := by
    rw [hadvances.endpointAt hactive', hnone, Option.none_or, ← hsame, hfound]
  obtain rfl : endpoint.method = method := by
    rw [Document.contribution] at hfound
    split at hfound
    · obtain ⟨operation, -, rfl⟩ := Option.map_eq_some_iff.1 hfound
      rfl
    · cases hfound
  exact ⟨template, item, earlier, later, before, after, id, hsplit, hbefore, hturn, hactive', hnone,
    hsome⟩

end Extraction

/-- **An endpoint depends on its path and on the parts that it refers to only.** If two documents
say the same about a template and have the same parameters, request bodies and responses, then the
endpoints that the path stores for a method are equal, whatever the resolvers had been asked before,
whatever the other paths and the schemas of the documents are, and whichever passes were made.

**Proof sketch.** By `Extraction.Stores.declared` each endpoint is the one that its document
declares for the operation, and by `Document.SharesParts.endpoint_eq` that is the same one. -/
theorem endpoint_eq_of_stores {document document' : Document} {cancelAt cancelAt' : Option Nat}
    {turns turns' : List Turn} {resolver resolver' : ResolverState}
    {start start' : ExtractionState} {template : String} {item : PathItem}
    {endpoint endpoint' : Endpoint}
    (hresolver : Session ⟨document, cancelAt⟩ turns resolver)
    (hresolver' : Session ⟨document', cancelAt'⟩ turns' resolver')
    (hstart : Extraction.Rounds ⟨document, cancelAt⟩ resolver start)
    (hstart' : Extraction.Rounds ⟨document', cancelAt'⟩ resolver' start')
    (hparts : document.SharesParts document')
    (h : Extraction.Stores ⟨document, cancelAt⟩ start template item endpoint)
    (h' : Extraction.Stores ⟨document', cancelAt'⟩ start' template item endpoint')
    (hmethod : endpoint.method = endpoint'.method) : endpoint = endpoint' := by
  obtain ⟨done, hindexed⟩ := h.indexed hresolver hstart
  obtain ⟨done', hindexed'⟩ := h'.indexed hresolver' hstart'
  obtain ⟨operation, hoperation, hendpoint⟩ := h.declared hindexed
  obtain ⟨operation', hoperation', hendpoint'⟩ := h'.declared hindexed'
  obtain rfl : operation = operation' := by
    rw [hmethod, hoperation'] at hoperation
    exact (Option.some.inj hoperation).symm
  rw [hendpoint, hendpoint', hparts.endpoint_eq, hmethod]

/-- A path that refers to a parameter and to a response. -/
def referringPath : PathItem where
  parameters := [.reference "#/components/parameters/p"]
  get := some { responses := some (.ofList [("200", .reference "#/components/responses/r")]) }

/-- A document that has this path and the parts that it refers to, beside others. -/
def referringDocument (others : List (String × PathItem)) (schemas : List (String × Node)) :
    Document where
  openapi := "3.1.0"
  title := "Test"
  version := "1"
  paths := some (.ofList (others ++ [("/c", referringPath)]))
  components := some {
    schemas := .ofList schemas
    parameters := .ofList [("p", .inline {
      name := "q", location := .query, schema := some (.reference "#/components/schemas/A") })]
    responses := .ofList [("r", .inline { content := .ofList [("text/plain", {
      schema := some (.reference "#/components/schemas/A") })] })] }

/-- A path whose operation has a parameter without a type. -/
def failingPath : PathItem where
  get := some { parameters := [.inline {
    name := "q", location := .query, schema := some (.inline {}) }] }

/-- A document with the path and a schema that is a text, and one in which another path fails before
and so does the schema, while the name for the schema of the parameter was taken: the path stores
equal endpoints. -/
theorem endpoint_eq_of_stores_referring :
    let plain := referringDocument [] [("A", .inline { types := .ofList [.string] })]
    let crowded := referringDocument [("/b", failingPath)] [("A", .inline {})]
    let taken : Repository := ((∅ : Repository).register (.array "/c/.q" [])).2
    ∃ endpoint endpoint',
      Extraction.Stores ⟨plain, none⟩ {} "/c" referringPath endpoint ∧
      Extraction.Stores ⟨crowded, none⟩ { resolver := { repository := taken } } "/c" referringPath
        endpoint' ∧
      endpoint.parameters.size = 1 ∧ endpoint.responses.size = 1 ∧ endpoint = endpoint' := by
  intro plain crowded taken
  have hplain : ((Extraction.stored? ⟨plain, none⟩ {} [] "/c" referringPath 1 .get).any
      fun endpoint => endpoint.method = .get && endpoint.parameters.size = 1 &&
        endpoint.responses.size = 1) = true := by decide +kernel
  have hcrowded : ((Extraction.stored? ⟨crowded, none⟩ { resolver := { repository := taken } }
      [("/b", failingPath)] "/c" referringPath 2 .get).any
      fun endpoint => endpoint.method = .get) = true := by decide +kernel
  obtain ⟨endpoint, hstored, hcheck⟩ := (Option.any_eq_true _ _).1 hplain
  obtain ⟨endpoint', hstored', hcheck'⟩ := (Option.any_eq_true _ _).1 hcrowded
  simp only [Bool.and_eq_true, decide_eq_true_eq] at hcheck hcheck'
  obtain ⟨⟨hmethod, hparameters⟩, hresponses⟩ := hcheck
  have h : Extraction.Stores ⟨plain, none⟩ {} "/c" referringPath endpoint :=
    Extraction.stores_of_stored? rfl (hmethod ▸ hstored)
  have h' : Extraction.Stores ⟨crowded, none⟩ { resolver := { repository := taken } } "/c"
      referringPath endpoint' :=
    Extraction.stores_of_stored? rfl (hcheck' ▸ hstored')
  have hparts : plain.SharesParts crowded := ⟨rfl, rfl, rfl⟩
  exact ⟨endpoint, endpoint', h, h', hparameters, hresponses,
    endpoint_eq_of_stores (.start ∅) (.start taken) .start .start hparts h h'
      (hmethod.trans hcheck'.symm)⟩

end ApiCatalog
