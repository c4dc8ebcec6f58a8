import ApiCatalog.Proofs.Analysis.Lookups
import ApiCatalog.Proofs.Extraction.Recording
import Mathlib.Data.List.Dedup

set_option autoImplicit false

/-!
# Responses of an analysis

A response of an operation that becomes an endpoint is taken up, or reported: its key cannot be
read, or it leads nowhere. But different keys may spell the same status, and then the last one
counts, which nothing reports.

## Main definitions

* `Document.ResponsesAccounted`: what has become of the responses of an operation.

## Main results

* `OrderedMap.size_ofList`: the size of a map of entries.
* `Document.find?_responseMap`: the last usable response of a status counts.
* `ApiCatalog.responses_of_analyze`: the responses of each endpoint are accounted for.
* `ApiCatalog.responses_twoSpellings`: a response that is lost.
-/

namespace ApiCatalog

/-! ## Maps of entries -/

namespace OrderedMap

variable {κ ν : Type} [DecidableEq κ]

/-- **The size of a map of entries** is the number of different keys. -/
theorem size_ofList (entries : List (κ × ν)) :
    (ofList entries).size = (entries.map Prod.fst).dedup.length := by
  have hperm : (ofList entries).keys.Perm (entries.map Prod.fst).dedup :=
    (List.perm_ext_iff_of_nodup (ofList entries).nodup_keys (List.nodup_dedup _)).2 fun key => by
      rw [List.mem_dedup]
      exact mem_keys_ofList
  rw [← hperm.length_eq, keys, List.length_map, size]

/-- A map of entries has as many entries exactly if their keys are distinct. -/
theorem size_ofList_eq_length_iff (entries : List (κ × ν)) :
    (ofList entries).size = entries.length ↔ (entries.map Prod.fst).Nodup := by
  rw [size_ofList, ← List.length_map Prod.fst, ← List.dedup_eq_self]
  exact ⟨(List.dedup_sublist _).eq_of_length, fun h => by rw [h]⟩

/-- Entries with new and distinct keys come after the others. -/
theorem keys_insertAll_of_nodup {entries : List (κ × ν)} {map : OrderedMap κ ν}
    (h : (map.keys ++ entries.map Prod.fst).Nodup) :
    (map.insertAll entries).keys = map.keys ++ entries.map Prod.fst := by
  induction entries generalizing map with
  | nil => exact (List.append_nil _).symm
  | cons entry rest ih =>
    have hnew : entry.1 ∉ map.keys := fun hmem =>
      (List.nodup_append.1 h).2.2 _ hmem _ List.mem_cons_self rfl
    have hkeys : (map.insert entry.1 entry.2).keys = map.keys ++ [entry.1] := by
      rw [keys_insert, if_neg hnew]
    have hsplit : map.keys ++ (entry :: rest).map Prod.fst =
        (map.insert entry.1 entry.2).keys ++ rest.map Prod.fst := by
      rw [hkeys, List.append_assoc]
      rfl
    rw [hsplit] at h ⊢
    exact ih h

/-- What is found among entries that are made from other things. -/
theorem findIn_map {α : Type} (f : α → κ × ν) (key : κ) (as : List α) :
    findIn key (as.map f) = (as.find? fun a => (f a).1 = key).map fun a => (f a).2 := by
  induction as with
  | nil => rfl
  | cons first rest ih =>
    rw [List.map_cons, findIn, List.find?_cons, ih]
    by_cases h : (f first).1 = key <;> simp [h]

end OrderedMap

/-- Two ways to take entries that leave none out and have none in common. -/
theorem length_filterMap_add_length_filterMap {α β γ : Type} {f : α → Option β} {g : α → Option γ}
    {as : List α} (h : ∀ a ∈ as, (f a).isSome = (g a).isNone) :
    (as.filterMap f).length + (as.filterMap g).length = as.length := by
  induction as with
  | nil => rfl
  | cons first rest ih =>
    obtain ⟨hfirst, hrest⟩ := List.forall_mem_cons.1 h
    have hlength := ih hrest
    cases hf : f first <;> cases hg : g first <;> simp [hf, hg] at hfirst ⊢ <;> omega

/-- The media types of a map of schemas are those that have a schema. -/
theorem keys_contentMap (nameOf : String → ModelName) (content : SortedMap MediaType) :
    (contentMap nameOf content.entries).keys =
      (content.entries.filter fun entry => entry.2.schema.isSome).map Prod.fst := by
  have hkeys : ∀ entries : List (String × MediaType),
      ((contentNodes entries).map fun entry => (entry.1, nameOf entry.1)).map Prod.fst =
        (entries.filter fun entry => entry.2.schema.isSome).map Prod.fst := by
    intro entries
    induction entries with
    | nil => rfl
    | cons entry rest ih =>
      rw [contentNodes, List.filterMap_cons, List.filter_cons]
      cases entry.2.schema with
      | none => exact ih
      | some node => exact congrArg (entry.1 :: ·) ih
  have hdistinct : (content.entries.map Prod.fst).Nodup :=
    List.pairwise_map.2 <| content.sorted.imp fun {a b} hlt (heq : a.1 = b.1) =>
      String.lt_irrefl b.1 (heq ▸ hlt)
  rw [contentMap, OrderedMap.ofList, OrderedMap.keys_insertAll_of_nodup, hkeys]
  · rfl
  · rw [hkeys]
    exact hdistinct.sublist (List.filter_sublist.map _)

/-! ## Responses of an operation -/

namespace Document

variable {document : Document} {template : String} {item : PathItem} {method : HttpMethod}
  {operation : Operation} {status : StatusKey} {content : List (String × MediaType)}

/-- The last usable response of a status counts. -/
theorem find?_responseMap (entries : List (String × OrReference Response)) (status : StatusKey) :
    (document.responseMap template method entries).find? status =
      ((document.declaredResponses entries).reverse.find? fun declared => declared.1 = status).map
        fun declared => (responseEntry template method declared).2 := by
  rw [responseMap, OrderedMap.ofList, OrderedMap.find?_insertAll, ← List.map_reverse,
    OrderedMap.findIn_map, OrderedMap.find?_empty, Option.or_none]
  rfl

/-- A usable response has the media types of the one that its reference leads to. -/
theorem exists_content_of_declaredResponse? {entry : String × OrReference Response}
    (h : document.declaredResponse? entry = some (status, content)) :
    ∃ found : SortedMap MediaType, content = found.entries := by
  unfold declaredResponse? at h
  split at h
  · cases h
  · split at h
    · cases h
    · cases h
    · next found _ =>
      cases h
      exact ⟨found.content, rfl⟩

/-- A response that can be looked up is complained of exactly if it is not usable. -/
theorem isSome_responseComplaint? {entry : String × OrReference Response}
    (h : ∀ status, StatusKey.ofText? entry.1 = some status →
      ∃ result, document.response entry.2 = .ok result) :
    (document.responseComplaint? template method entry).isSome =
      (document.declaredResponse? entry).isNone := by
  unfold responseComplaint? declaredResponse?
  cases hstatus : StatusKey.ofText? entry.1 with
  | none => rfl
  | some status =>
    obtain ⟨result, hresult⟩ := h status hstatus
    simp only [hresult]
    cases result <;> rfl

/-- The responses of an endpoint are as many as the usable ones exactly if these have distinct
statuses. -/
theorem size_responseMap_eq_iff (template : String) (method : HttpMethod)
    {entries : List (String × OrReference Response)} :
    (document.responseMap template method entries).size =
        (document.declaredResponses entries).length ↔
      ((document.declaredResponses entries).map Prod.fst).Nodup := by
  have hiff := OrderedMap.size_ofList_eq_length_iff
    ((document.declaredResponses entries).map (responseEntry template method))
  rwa [List.length_map, List.map_map] at hiff

/-- **What has become of the responses of an operation.** Some are not usable, and each of these is
reported once. Any other one has its status among the responses of the endpoint, which are made from
the last usable response of each status. Nothing is lost exactly if the usable responses have
distinct statuses. -/
structure ResponsesAccounted (document : Document) (template : String) (method : HttpMethod)
    (operation : Operation) (endpoint : Endpoint) (diagnostics : List Diagnostic) : Prop where
  reported : diagnostics.filter
      (· ∈ document.responseComplaints template method operation.responseEntries) =
    document.responseComplaints template method operation.responseEntries
  unusable : ∀ entry ∈ operation.responseEntries, document.declaredResponse? entry = none →
    ∃ diagnostic, document.responseComplaint? template method entry = some diagnostic
  usable : ∀ entry ∈ operation.responseEntries, ∀ status content,
    document.declaredResponse? entry = some (status, content) →
    document.responseComplaint? template method entry = none ∧ ∃ last schemas,
      ((document.declaredResponses operation.responseEntries).reverse.find?
        fun declared => declared.1 = status) = some (status, last) ∧
      (((document.declaredResponses operation.responseEntries).map Prod.fst).Nodup →
        last = content) ∧
      endpoint.responses.find? status = some ⟨status, schemas⟩ ∧
      schemas.keys = (last.filter fun media => media.2.schema.isSome).map Prod.fst ∧
      ∀ mediaType ∈ schemas.keys,
        schemas.find? mediaType = some (Naming.response template method status mediaType)
  lossless : endpoint.responses.size +
      (document.responseComplaints template method operation.responseEntries).length =
        operation.responseEntries.length ↔
    ((document.declaredResponses operation.responseEntries).map Prod.fst).Nodup

/-- The status of a usable response is among those of the endpoint. -/
theorem exists_last_of_declaredResponse? {entries : List (String × OrReference Response)}
    {entry : String × OrReference Response} (hentry : entry ∈ entries)
    (h : document.declaredResponse? entry = some (status, content)) :
    ∃ last, (document.declaredResponses entries).reverse.find?
        (fun declared => declared.1 = status) = some (status, last) ∧
      (((document.declaredResponses entries).map Prod.fst).Nodup → last = content) := by
  have hmem : (status, content) ∈ document.declaredResponses entries :=
    List.mem_filterMap.2 ⟨entry, hentry, h⟩
  have hsome : ((document.declaredResponses entries).reverse.find?
      fun declared => declared.1 = status).isSome = true :=
    List.find?_isSome.2 ⟨_, List.mem_reverse.2 hmem, decide_eq_true rfl⟩
  obtain ⟨⟨other, last⟩, hlast⟩ := Option.isSome_iff_exists.1 hsome
  obtain rfl : other = status := by simpa using List.find?_some hlast
  refine ⟨last, hlast, fun hnodup => ?_⟩
  have hmem' := List.mem_reverse.1 (List.mem_of_find?_eq_some hlast)
  exact congrArg Prod.snd (List.inj_on_of_nodup_map hnodup hmem' hmem rfl)

/-- The schemas of a usable response are named after its media types. -/
theorem find?_contentMap {nameOf : String → ModelName} {mediaType : String}
    (h : mediaType ∈ (contentMap nameOf content).keys) :
    (contentMap nameOf content).find? mediaType = some (nameOf mediaType) := by
  have hfind : (contentMap nameOf content).find? mediaType =
      ((contentNodes content).reverse.find? fun entry => entry.1 = mediaType).map
        fun entry => nameOf entry.1 := by
    rw [contentMap, OrderedMap.ofList, OrderedMap.find?_insertAll, ← List.map_reverse,
      OrderedMap.findIn_map, OrderedMap.find?_empty, Option.or_none]
  obtain ⟨name, hname⟩ := Option.isSome_iff_exists.1 (OrderedMap.contains_iff.2 h)
  rw [hfind] at hname
  obtain ⟨entry, hentry, -⟩ := Option.map_eq_some_iff.1 hname
  have hkey : entry.1 = mediaType := by simpa using List.find?_some hentry
  rw [hfind, hentry, Option.map_some, hkey]

/-! ## Reports on responses -/

/-- What is complained of about a request body is not about a response. -/
theorem notMem_responseComplaints_of_mem_bodyComplaints {diagnostic : Diagnostic}
    {entries : List (String × OrReference Response)}
    (h : diagnostic ∈ document.bodyComplaints template method operation) :
    diagnostic ∉ document.responseComplaints template method entries := by
  intro hmem
  obtain ⟨entry, -, hentry⟩ := List.mem_filterMap.1 hmem
  unfold bodyComplaints at h
  unfold responseComplaint? at hentry
  split at h
  · cases h
  · split at h
    · obtain rfl := List.mem_singleton.1 h
      split at hentry
      · cases hentry
      · split at hentry
        · have hhint := (Diagnostic.unresolvedReference.inj (Option.some.inj hentry)).1
          simpa using congrArg String.toList hhint
        · cases hentry
    · cases h

/-- Among the complaints about an operation apart from its parameters, those about responses are
easily told apart. -/
theorem filter_responseComplaints {parameters : List EndpointParameter}
    {reports : List Diagnostic}
    (hreports : document.responseComplaints template method operation.responseEntries = reports) :
    (unboundComplaints template method parameters ++
      (document.bodyComplaints template method operation ++ reports)).filter (· ∈ reports) =
        reports := by
  have hunbound : (unboundComplaints template method parameters).filter (· ∈ reports) = [] := by
    refine List.filter_eq_nil_iff.2 fun diagnostic hmem hof => ?_
    obtain ⟨parameter, -, rfl⟩ := List.mem_map.1 hmem
    rw [decide_eq_true_eq, ← hreports] at hof
    exact unboundPathParameter_notMem operation (List.mem_append_right _ hof)
  have hbody : (document.bodyComplaints template method operation).filter (· ∈ reports) = [] :=
    List.filter_eq_nil_iff.2 fun diagnostic hmem hof =>
      notMem_responseComplaints_of_mem_bodyComplaints hmem (hreports ▸ of_decide_eq_true hof)
  rw [List.filter_append, List.filter_append, hunbound, hbody, List.nil_append, List.nil_append]
  exact List.filter_eq_self.2 fun diagnostic hmem => decide_eq_true hmem

end Document

/-- **The responses of each endpoint are accounted for**: the unusable ones are reported, each once,
and the usable ones have their status in the endpoint, in which the last one of each status counts.

**Proof sketch.** The endpoint is the one that is declared for the operation that provides it. What
is reported of its responses is what is complained of, since a report tells the operation and the
response that it concerns (`Document.Provides.filter_complaints`). -/
theorem responses_of_analyze {document : Document} {options : Options} {analysis : Analysis}
    (h : analyze document options = .ok analysis) {id : Nat} {method : HttpMethod}
    {endpoint : Endpoint} (hstored : analysis.paths.endpointAt id method = some endpoint) :
    ∃ template item operation,
      document.Provides analysis.paths id method template item operation ∧
      document.ResponsesAccounted template method operation endpoint analysis.diagnostics := by
  obtain ⟨state, hextract, hend, rfl⟩ := analyze_ok h
  obtain ⟨passed, -, htaken⟩ := takenUp_of_extract hextract hend
  obtain ⟨template, item, operation, hprovides, rfl⟩ := (htaken.endpoints id method _).1 hstored
  have htakesUp := htaken.operations id method template item operation hprovides
  have hdichotomy : ∀ entry ∈ operation.responseEntries,
      (document.responseComplaint? template method entry).isSome =
        (document.declaredResponse? entry).isNone := by
    intro entry hentry
    refine Document.isSome_responseComplaint? fun status hstatus => ?_
    rcases htakesUp.responses entry.1 entry.2 status hentry hstatus with ⟨found, h⟩ | ⟨_, h, -⟩
    · exact ⟨_, h⟩
    · exact ⟨_, h⟩
  refine ⟨template, item, operation, hprovides, ?reported, fun entry hentry hnone => ?unusable,
    fun entry hentry status content hdeclared => ?usable, ?lossless⟩
  case reported =>
    refine (hprovides.filter_diagnostics hextract hend fun diagnostic hof => ?_).trans
      (Document.filter_responseComplaints rfl)
    obtain ⟨entry, -, hentry⟩ := List.mem_filterMap.1 (of_decide_eq_true hof)
    exact ⟨Document.concerns_of_responseComplaint? hentry,
      Document.blamesSchema_of_responseComplaint? hentry⟩
  case unusable =>
    refine Option.isSome_iff_exists.1 ?_
    rw [hdichotomy entry hentry, hnone]
    rfl
  case usable =>
    obtain ⟨last, hlast, hsole⟩ := Document.exists_last_of_declaredResponse? hentry hdeclared
    have hmem := List.mem_reverse.1 (List.mem_of_find?_eq_some hlast)
    obtain ⟨other, -, hother⟩ := List.mem_filterMap.1 hmem
    obtain ⟨found, rfl⟩ := Document.exists_content_of_declaredResponse? hother
    refine ⟨?_, found.entries, contentMap (Naming.response template method status) found.entries,
      hlast, hsole, ?_, keys_contentMap _ found, fun _ => Document.find?_contentMap⟩
    · have hnone := hdichotomy entry hentry
      rw [hdeclared, Option.isNone_some, Option.isSome_eq_false_iff] at hnone
      exact Option.isNone_iff_eq_none.1 hnone
    · show (document.responseMap template method operation.responseEntries).find? status = _
      rw [Document.find?_responseMap, hlast]
      rfl
  case lossless =>
    have hlength : (document.responseComplaints template method operation.responseEntries).length +
        (document.declaredResponses operation.responseEntries).length =
          operation.responseEntries.length :=
      length_filterMap_add_length_filterMap hdichotomy
    rw [← Document.size_responseMap_eq_iff template method]
    show (document.responseMap template method operation.responseEntries).size + _ = _ ↔ _
    omega

/-- A document with one operation, which has certain responses. -/
def Document.ofResponses (responses : List (String × OrReference Response)) : Document :=
  .ofPaths [("/a", { get := some { responses := some (.ofList responses) } })] []

/-- A response that is a text. -/
def textResponse : OrReference Response :=
  .inline { content := .ofList [("text/plain", {
    schema := some (.inline { types := .ofList [.string] }) })] }

/-- A response, one that leads nowhere, and a key that cannot be read. -/
def mixedResponses : Document :=
  .ofResponses [("200", textResponse), ("404", .reference "#/components/responses/Missing"),
    ("ok", textResponse)]

/-- Of three responses two are reported, and one is in the endpoint. -/
theorem responses_mixed :
    ∃ analysis endpoint, analyze mixedResponses {} = .ok analysis ∧
      analysis.paths.endpointAt 1 .get = some endpoint ∧ endpoint.responses.size = 1 ∧
      analysis.diagnostics.length = 2 ∧ ∃ template item operation,
        mixedResponses.Provides analysis.paths 1 .get template item operation ∧
        mixedResponses.ResponsesAccounted template .get operation endpoint
          analysis.diagnostics := by
  have hcheck : ((analyze mixedResponses {}).toOption.any fun analysis =>
      ((analysis.paths.endpointAt 1 .get).any fun endpoint => endpoint.responses.size = 1) &&
        analysis.diagnostics.length = 2) = true := by decide +kernel
  obtain ⟨analysis, h, hcheck⟩ := exists_of_any_toOption hcheck
  obtain ⟨hendpoint, hlength⟩ := Bool.and_eq_true_iff.1 hcheck
  obtain ⟨hsome, hsize⟩ := (Option.any_eq_true_iff_get _ _).1 hendpoint
  have hstored := (Option.some_get hsome).symm
  exact ⟨analysis, _, h, hstored, by simpa using hsize, by simpa using hlength,
    responses_of_analyze h hstored⟩

/-- A status that is spelled in two ways, for a text and for a response without contents. -/
def twoSpellings : Document :=
  .ofResponses [("4XX", textResponse), ("4xx", .inline {})]

/-- **A response is lost without a report** if the key of another one spells the same status. -/
theorem responses_twoSpellings :
    twoSpellings.declaredResponse? ("4XX", textResponse) =
        some (.range 4, [("text/plain", {
          schema := some (.inline { types := .ofList [.string] }) })]) ∧
      ∃ analysis endpoint, analyze twoSpellings {} = .ok analysis ∧ analysis.diagnostics = [] ∧
        analysis.paths.endpointAt 1 .get = some endpoint ∧
        endpoint.responses.entries = [(.range 4, ⟨.range 4, ∅⟩)] := by
  have hcheck : ((analyze twoSpellings {}).toOption.any fun analysis =>
      analysis.diagnostics = [] && ((analysis.paths.endpointAt 1 .get).any fun endpoint =>
        endpoint.responses.entries = [(.range 4, ⟨.range 4, ∅⟩)])) = true := by decide +kernel
  obtain ⟨analysis, h, hcheck⟩ := exists_of_any_toOption hcheck
  obtain ⟨hsilent, hendpoint⟩ := Bool.and_eq_true_iff.1 hcheck
  obtain ⟨hsome, hentries⟩ := (Option.any_eq_true_iff_get _ _).1 hendpoint
  exact ⟨rfl, analysis, _, h, by simpa using hsilent, (Option.some_get hsome).symm,
    by simpa using hentries⟩

end ApiCatalog
