import ApiCatalog.Proofs.Analysis.Lookups
import ApiCatalog.Proofs.Extraction.Concerns

set_option autoImplicit false

/-!
# What an extraction records

An extraction that is not cancelled records exactly the complaints that its document gives rise to,
each once and in the order in which it comes to them, beside what the resolution of schemas reports
in between.

## Main definitions

* `ExtractionState.Files`: certain complaints are recorded between two states.
* `Extraction.Filing`: a step records certain complaints.

## Main results

* `Extraction.Filing.bind`: one step after another.
* `Extraction.files_bindParameters`: path parameters are bound to nodes, or complained of.
* `Extraction.files_extractOperations`, `Extraction.files_extractPaths`: operations and paths.
* `ApiCatalog.complaints_of_extract`: the complaints that an extraction records.
* `ApiCatalog.filter_diagnostics_of_extract`: what it records of a certain sort.
* `Document.Provides.filter_diagnostics`: what it records of an operation with an endpoint.
-/

namespace ApiCatalog

/-- Certain complaints are recorded between two states, unless the extraction is cancelled. -/
structure ExtractionState.Files (document : Document) (complaints : List Diagnostic)
    (state state' : ExtractionState) : Prop where
  grows : state.Grows state'
  filed : state'.resolver.cancelled = false →
    document.complaintsIn state'.resolver.diagnostics =
      document.complaintsIn state.resolver.diagnostics ++ complaints

namespace ExtractionState.Files

variable {document : Document} {complaints complaints' : List Diagnostic}
  {state state₁ state₂ : ExtractionState}

/-- Nothing is recorded where nothing happens. -/
theorem refl (document : Document) (state : ExtractionState) : state.Files document [] state :=
  ⟨.refl _, fun _ => (List.append_nil _).symm⟩

/-- Some complaints and then others are recorded. -/
theorem trans (h₁ : state.Files document complaints state₁)
    (h₂ : state₁.Files document complaints' state₂) :
    state.Files document (complaints ++ complaints') state₂ := by
  refine ⟨h₁.grows.trans h₂.grows, fun hend => ?_⟩
  rw [h₂.filed hend, h₁.filed (h₂.grows.not_cancelled hend), List.append_assoc]

/-- What the complaints are is of interest only if the extraction is not cancelled. -/
theorem congr (h : state.Files document complaints state₁)
    (hsame : state₁.resolver.cancelled = false → complaints = complaints') :
    state.Files document complaints' state₁ :=
  ⟨h.grows, fun hend => hsame hend ▸ h.filed hend⟩

/-- A change of the index records nothing. -/
theorem withIndex (h : state.Files document complaints state₁) (index : PathIndex) :
    state.Files document complaints { state₁ with index } :=
  ⟨⟨h.grows.resolver, h.grows.bindings⟩, h.filed⟩

/-- A complaint is recorded. -/
theorem record {diagnostic : Diagnostic} (hblames : document.blamesSchema diagnostic = false)
    (state : ExtractionState) :
    state.Files document [diagnostic]
      { state with resolver := state.resolver.record diagnostic } :=
  ⟨⟨.record _ _, fun _ _ h => h⟩, fun _ => Document.complaintsIn_record hblames _⟩

end ExtractionState.Files

namespace Extraction

/-! ## Steps -/

/-- A step that answers records certain complaints. -/
structure Filing {α : Type} (document : Document) (complaints : List Diagnostic)
    (step : Extraction α) : Prop where
  files : ∀ {state answer state'}, step state = .ok answer state' →
    state.Files document complaints state'

namespace Filing

variable {document : Document} {complaints complaints' : List Diagnostic} {α β : Type}
  {x : Extraction α} {f : α → Extraction β}

/-- An answer. -/
theorem pure (a : α) : Filing document [] (pure a : Extraction α) := by
  refine ⟨fun {state answer state'} hstep => ?_⟩
  cases hstep
  exact .refl document state

/-- **One step after another.** -/
theorem bind (hx : Filing document complaints x) (hf : ∀ a, Filing document complaints' (f a)) :
    Filing document (complaints ++ complaints') (x >>= f) := by
  refine ⟨fun hstep => ?_⟩
  obtain ⟨a, s, hfirst, hrest⟩ := bind_eq_ok_iff.1 hstep
  exact (hx.files hfirst).trans ((hf a).files hrest)

/-- A step of which nothing but the first part records anything. -/
theorem before (hx : Filing document complaints x) (hf : ∀ a, Filing document [] (f a)) :
    Filing document complaints (x >>= f) :=
  List.append_nil complaints ▸ hx.bind hf

/-- A step of which nothing but what follows records anything. -/
theorem after (hx : Filing document [] x) (hf : ∀ a, Filing document complaints (f a)) :
    Filing document complaints (x >>= f) :=
  hx.bind hf

/-- A step that depends on a value, if there is one. -/
theorem ofExceptBind {result : Except Abort α}
    (hf : ∀ a, result = .ok a → Filing document complaints (f a)) :
    Filing document complaints (Extraction.ofExcept result >>= f) := by
  rw [ofExcept_bind]
  cases result with
  | error abort => exact ⟨fun hstep => nomatch hstep⟩
  | ok a => exact hf a rfl

/-- A step that is taken unless the extraction was cancelled. -/
theorem unlessCancelled {a : α} (hx : Filing document complaints x) :
    Filing document complaints (do if ← Extraction.isCancelled then return a else x) := by
  refine ⟨fun {state answer state'} hstep => ?_⟩
  obtain ⟨_, _, hcancelled, hstep⟩ := bind_eq_ok_iff.1 hstep
  cases hcancelled
  split at hstep
  · next hcancelled =>
    cases hstep
    refine ⟨.refl _, fun hend => ?_⟩
    rw [hcancelled] at hend
    cases hend
  · exact hx.files hstep

/-- A complaint is recorded. -/
theorem record {diagnostic : Diagnostic} (h : document.blamesSchema diagnostic = false) :
    Filing document [diagnostic] (Extraction.record diagnostic) := by
  refine ⟨fun {state answer state'} hstep => ?_⟩
  cases hstep
  exact .record h state

/-- The resolution of a schema of an endpoint records no complaint. -/
theorem resolveBound {cancelAt : Option Nat} (node : Node) (name : ModelName) :
    Filing document [] (resolveBound ⟨document, cancelAt⟩ node name) := by
  refine ⟨fun hstep => ⟨grows_resolveBound hstep, fun _ => ?_⟩⟩
  obtain ⟨resolution, resolver, hrun, rfl⟩ := resolveBound_ok hstep
  rw [List.append_nil]
  exact hrun.complaintsIn_eq

/-- The resolution of a component records no complaint. -/
theorem resolveComponent {cancelAt : Option Nat} (id : String) (node : Node) :
    Filing document [] (ofResolver (resolveComponent ⟨document, cancelAt⟩ id node)) := by
  refine ⟨fun hstep => ⟨(grows_resolveComponent hstep).1, fun _ => ?_⟩⟩
  obtain ⟨resolver, hcomponent, rfl⟩ := ofResolver_ok hstep
  rw [List.append_nil]
  rcases resolveComponent_ok hcomponent with ⟨-, -, rfl⟩ | ⟨resolution, s, -, -, -, hrun, rfl⟩
  · rfl
  · rw [ResolverState.diagnostics_memoise]
    exact hrun.complaintsIn_eq

end Filing

/-! ## Parts of operations -/

section Parts

variable {document : Document} {cancelAt : Option Nat} {template : String} {method : HttpMethod}

/-- A parameter is taken up, or complained of. -/
theorem filing_collectParameter (index : Nat) (entry : OrReference Parameter)
    (collected : ParameterMap) :
    Filing document (document.parameterComplaint? template (entry, index)).toList
      (collectParameter ⟨document, cancelAt⟩ template index entry collected) := by
  refine .ofExceptBind fun result hresult => ?_
  unfold Document.parameterComplaint?
  rw [hresult]
  cases result with
  | error error =>
    exact (Filing.record (Document.blamesSchema_of_get (by decide) hresult _)).before fun _ =>
      .pure _
  | ok found =>
    show Filing document _ (addParameter ⟨document, cancelAt⟩ template index found collected)
    unfold addParameter
    by_cases hblank : Text.isBlankText found.name = true
    · simp only [if_pos hblank]
      exact (Filing.record rfl).before fun _ => .pure _
    · simp only [if_neg hblank]
      cases found.schema? with
      | none => exact (Filing.record rfl).before fun _ => .pure _
      | some node => exact (Filing.resolveBound node _).after fun _ => .pure _

/-- **Parameters are taken up, or complained of.** -/
theorem filing_collectParameters (cancelAt : Option Nat)
    (entries : List (OrReference Parameter)) (index : Nat) (collected : ParameterMap) :
    Filing document (document.parameterComplaints template index entries)
      (collectParameters ⟨document, cancelAt⟩ template index entries collected) := by
  induction entries generalizing index collected with
  | nil => exact .pure _
  | cons entry rest ih =>
    have hcomplaints : document.parameterComplaints template index (entry :: rest) =
        (document.parameterComplaint? template (entry, index)).toList ++
          document.parameterComplaints template (index + 1) rest := by
      rw [Document.parameterComplaints, List.zipIdx_cons, List.filterMap_cons]
      cases document.parameterComplaint? template (entry, index) <;> rfl
    rw [hcomplaints]
    exact .unlessCancelled ((filing_collectParameter index entry collected).bind fun _ => ih _ _)

/-- The schemas of media types are resolved without complaints. -/
theorem filing_collectContent {nameOf : String → ModelName} (content : List (String × MediaType))
    (collected : OrderedMap String ModelName) :
    Filing document [] (collectContent ⟨document, cancelAt⟩ nameOf content collected) := by
  induction content generalizing collected with
  | nil => exact .pure _
  | cons entry rest ih =>
    obtain ⟨mediaType, media⟩ := entry
    unfold collectContent
    cases media.schema with
    | none => exact ih _
    | some node => exact (Filing.resolveBound node _).after fun _ => ih _

/-- Request bodies are resolved, or complained of. -/
theorem filing_collectRequestBodies (operation : Operation) :
    Filing document (document.bodyComplaints template method operation)
      (collectRequestBodies ⟨document, cancelAt⟩ template method operation.requestBody) := by
  unfold Document.bodyComplaints
  cases operation.requestBody with
  | none => exact .pure _
  | some body =>
    refine .ofExceptBind fun result hresult => ?_
    simp only [hresult]
    cases result with
    | error error =>
      exact (Filing.record (Document.blamesSchema_of_get (by decide) hresult _)).before fun _ =>
        .pure _
    | ok found => exact filing_collectContent _ _

/-- A response is taken up, or complained of. -/
theorem filing_collectResponse (key : String) (response : OrReference Response)
    (collected : ResponseMap) :
    Filing document (document.responseComplaint? template method (key, response)).toList
      (collectResponse ⟨document, cancelAt⟩ template method key response collected) := by
  unfold Document.responseComplaint? collectResponse
  cases StatusKey.ofText? key with
  | none => exact (Filing.record rfl).before fun _ => .pure _
  | some status =>
    refine .ofExceptBind fun result hresult => ?_
    simp only [hresult]
    cases result with
    | error error =>
      exact (Filing.record (Document.blamesSchema_of_get (by decide) hresult _)).before fun _ =>
        .pure _
    | ok found => exact (filing_collectContent _ _).before fun _ => .pure _

/-- **Responses are taken up, or complained of.** -/
theorem filing_collectResponses (entries : List (String × OrReference Response))
    (collected : ResponseMap) :
    Filing document (document.responseComplaints template method entries)
      (collectResponses ⟨document, cancelAt⟩ template method entries collected) := by
  induction entries generalizing collected with
  | nil => exact .pure _
  | cons entry rest ih =>
    obtain ⟨key, response⟩ := entry
    have hcomplaints : document.responseComplaints template method ((key, response) :: rest) =
        (document.responseComplaint? template method (key, response)).toList ++
          document.responseComplaints template method rest := by
      rw [Document.responseComplaints, List.filterMap_cons]
      cases document.responseComplaint? template method (key, response) <;> rfl
    rw [hcomplaints]
    exact .unlessCancelled ((filing_collectResponse key response collected).bind fun _ => ih _)

end Parts

/-! ## Path parameters -/

/-- The path parameters among some are bound wherever a walk knows a node by the name of one. -/
def BindsAll (walked : WalkedPath) (parameters : List EndpointParameter) (index : PathIndex) :
    Prop :=
  ∀ parameter ∈ parameters, parameter.location = .path → ∀ id,
    walked.parameters.find? parameter.name = some id → (index.boundAt id).isSome = true

/-- What is bound stays so while the index grows. -/
theorem BindsAll.mono {walked : WalkedPath} {parameters : List EndpointParameter}
    {index index' : PathIndex} (h : BindsAll walked parameters index)
    (hgrows : index.GrowsTo index') : BindsAll walked parameters index' := by
  intro parameter hparameter hlocation id hfind
  obtain ⟨schema, hbound⟩ :=
    Option.isSome_iff_exists.1 (h parameter hparameter hlocation id hfind)
  exact Option.isSome_iff_exists.2 ⟨schema, hgrows.boundAt hbound⟩

section Endpoints

variable {document : Document} {cancelAt : Option Nat} {template : String} {item : PathItem}
  {method : HttpMethod} {operation : Operation} {names : List ModelName} {shared : ParameterMap}
  {walked : WalkedPath} {state state' : ExtractionState}

/-- A path parameter is bound to the node of its segment, or complained of. -/
theorem files_bindParameter (document : Document) {parameter : EndpointParameter}
    (hproper : state.index.Proper)
    (hfollows : walked.Follows state.index (templateSegments template))
    (hlocation : parameter.location = .path)
    (h : bindParameter template method walked parameter state = .ok () state') :
    state.Files document (Document.unboundComplaints template method [parameter]) state' ∧
      state.index.SameOutline state'.index ∧ BindsAll walked [parameter] state'.index := by
  have hknown := hfollows.find?_isSome_iff parameter.name
  rw [Document.unboundComplaints, List.filter_cons]
  cases hfind : walked.parameters.find? parameter.name with
  | none =>
    rw [hfind] at hknown
    have hmissing : parameter.name ∉ parameterNames (templateSegments template) :=
      fun hmem => nomatch hknown.2 hmem
    rw [bindParameter, bindParameterWith, hfind] at h
    cases h
    rw [if_pos (by simp [hlocation, hmissing])]
    refine ⟨.record rfl state, rfl, fun other hother _ id hid => ?_⟩
    obtain rfl := List.mem_singleton.1 hother
    rw [hfind] at hid
    cases hid
  | some id =>
    rw [hfind] at hknown
    have hnamed : parameter.name ∈ parameterNames (templateSegments template) := hknown.1 rfl
    obtain ⟨part, hpart, hkind⟩ := hfollows.isParameter hproper hfind
    obtain ⟨bound, index, hbind⟩ := PathIndex.exists_bind hpart hkind parameter.schema
    rw [bindParameter, bindParameterWith, hfind] at h
    obtain ⟨found, s, hchange, h⟩ := bind_eq_ok_iff.1 h
    cases (changeIndex_of_ok hbind).symm.trans hchange
    cases h
    rw [if_neg (by simp [hnamed])]
    refine ⟨.withIndex (.refl document state) index, (PathIndex.sameOutline_bind hbind).1,
      fun other hother _ id' hid' => ?_⟩
    obtain rfl := List.mem_singleton.1 hother
    obtain rfl : id = id' := Option.some.inj (hfind.symm.trans hid')
    rw [PathIndex.boundAt_bind hbind]
    rfl

/-- **Path parameters are bound to the nodes of their segments**, or complained of.

**Proof sketch.** Induction on the parameters. The outline of the index stays, so that the walk
still follows the segments; and a node that is bound stays bound. -/
theorem files_bindParameters (document : Document) {parameters : List EndpointParameter}
    (hproper : state.index.Proper)
    (hfollows : walked.Follows state.index (templateSegments template))
    (h : bindParameters template method walked parameters state = .ok () state') :
    state.Files document (Document.unboundComplaints template method parameters) state' ∧
      state.index.SameOutline state'.index ∧ BindsAll walked parameters state'.index := by
  induction parameters generalizing state with
  | nil =>
    cases h
    exact ⟨.refl document _, rfl, fun _ hmem => nomatch hmem⟩
  | cons parameter rest ih =>
    rw [bindParameters, bindParametersWith] at h
    by_cases hlocation : parameter.location = .path
    · rw [if_pos hlocation] at h
      obtain ⟨_, s, hfirst, hrest⟩ := bind_eq_ok_iff.1 h
      obtain ⟨hfiles, houtline, hbinds⟩ :=
        files_bindParameter document hproper hfollows hlocation hfirst
      obtain ⟨hfiles', houtline', hbinds'⟩ :=
        ih (houtline.proper hproper) (hfollows.mono houtline.toExtends) hrest
      have hgrows : s.index.GrowsTo state'.index :=
        (((building_growsTo document none s.index).bindParameters template method walked rest) s
          (.refl _)).answer hrest
      refine ⟨?_, houtline'.trans houtline, fun other hother => ?_⟩
      · have hsplit := hfiles.trans hfiles'
        rwa [Document.unboundComplaints, Document.unboundComplaints, ← List.map_append,
          ← List.filter_append] at hsplit
      · rcases List.mem_cons.1 hother with rfl | hother
        · exact hbinds.mono hgrows other List.mem_cons_self
        · exact hbinds' other hother
    · rw [if_neg hlocation] at h
      obtain ⟨hfiles, houtline, hbinds⟩ := ih hproper hfollows h
      refine ⟨?_, houtline, fun other hother hpath => ?_⟩
      · rw [Document.unboundComplaints, List.filter_cons, if_neg (by simp [hlocation])]
        exact hfiles
      · rcases List.mem_cons.1 hother with rfl | hother
        · exact absurd hpath hlocation
        · exact hbinds other hother hpath

/-! ## Operations -/

/-- **The building of an endpoint** records the complaints about its operation, and binds the path
parameters that count. -/
theorem files_buildEndpoint {endpoint : Endpoint}
    (hrequests : document.operationRequests template method operation ⊆ document.requests)
    (hproper : state.index.Proper)
    (hfollows : walked.Follows state.index (templateSegments template))
    (hinformed : Informed document template item names shared state)
    (h : buildEndpoint ⟨document, cancelAt⟩ template method operation shared walked state =
      .ok endpoint state') :
    state.Files document (document.operationComplaints template item method operation) state' ∧
      (state'.resolver.cancelled = false →
        BindsAll walked (document.parametersOf template item operation).values state'.index) := by
  rw [Document.operationRequests, List.append_subset, List.append_subset] at hrequests
  obtain ⟨hparameters, hbodies, hresponses⟩ := hrequests
  obtain ⟨own, s₁, hown, h⟩ := bind_eq_ok_iff.1 h
  obtain ⟨_, s₂, hbind, h⟩ := bind_eq_ok_iff.1 h
  obtain ⟨requestBodies, s₃, hbodiesRun, h⟩ := bind_eq_ok_iff.1 h
  obtain ⟨responses, s₄, hresponsesRun, h⟩ := bind_eq_ok_iff.1 h
  cases h
  have hbuilds : state.Builds s₁ := ((building_builds (.any _) state).collectParameters hparameters
    (fun _ _ => trivial) 0 ∅ state (.refl state)).answer hown
  have hfiles₁ := (filing_collectParameters cancelAt _ _ _).files hown
  obtain ⟨hfiles₂, -, hbinds⟩ := files_bindParameters document
    (hbuilds.outline.proper hproper) (hfollows.mono hbuilds.outline.toExtends) hbind
  have hfiles₃ := (filing_collectRequestBodies operation).files hbodiesRun
  have hfiles₄ := (filing_collectResponses operation.responseEntries ∅).files hresponsesRun
  have hlater : s₁.Grows state' := (hfiles₂.trans (hfiles₃.trans hfiles₄)).grows
  have hcounted : state'.resolver.cancelled = false →
      shared.insertAll own.entries = document.parametersOf template item operation := by
    intro hend
    have hend₁ := hlater.not_cancelled hend
    obtain ⟨rfl, hcoherent⟩ := hinformed (hfiles₁.grows.not_cancelled hend₁)
    obtain ⟨rfl, -⟩ := collectParameters_ok hparameters hown hend₁ hcoherent.accounted
    rfl
  refine ⟨(hfiles₁.trans (hfiles₂.trans (hfiles₃.trans hfiles₄))).congr fun hend => ?_,
    fun hend => ?_⟩
  · rw [hcounted hend]
    rfl
  · rw [← hcounted hend]
    have hgrowth := building_growsTo document cancelAt
    have hgrows₃ := ((hgrowth s₂.index).collectRequestBodies hbodies (fun _ _ => trivial) s₂
      (.refl _)).answer hbodiesRun
    have hgrows₄ := ((hgrowth s₃.index).collectResponses hresponses (fun _ _ => trivial) ∅ s₃
      (.refl _)).answer hresponsesRun
    exact hbinds.mono (hgrows₃.trans hgrows₄)

/-- An operation of a node that has no endpoint for its method is complained of as it deserves; it
becomes an endpoint, and binds the path parameters that count. -/
theorem files_insertBuilt
    (hrequests : document.operationRequests template method operation ⊆ document.requests)
    (hproper : state.index.Proper)
    (hfollows : walked.Follows state.index (templateSegments template))
    (hinformed : Informed document template item names shared state)
    (hfree : state.index.endpointAt walked.terminal method = none)
    (h : extractOperation ⟨document, cancelAt⟩ template shared walked method operation state =
      .ok () state') :
    state.Files document (document.operationComplaints template item method operation) state' ∧
      (state'.resolver.cancelled = false →
        BindsAll walked (document.parametersOf template item operation).values state'.index) := by
  have hterminal := PathIndex.lt_of_descend state.index.root_lt hfollows.terminal
  obtain ⟨hknown, -⟩ | ⟨-, endpoint, s, index, -, hbuild, hinsert, rfl⟩ :=
    extractOperation_ok hrequests hterminal h
  · rw [hfree] at hknown
    cases hknown
  · obtain ⟨hfiles, hbinds⟩ := files_buildEndpoint hrequests hproper hfollows hinformed hbuild
    exact ⟨hfiles.withIndex index, fun hend =>
      (hbinds hend).mono ((PathIndex.GrowsTo.refl _).insertEndpoint hinsert)⟩

/-- An operation is complained of as a duplicate, if its node has an endpoint for its method, or
else as it deserves. -/
theorem files_extractOperation
    (hrequests : document.operationRequests template method operation ⊆ document.requests)
    (hproper : state.index.Proper)
    (hfollows : walked.Follows state.index (templateSegments template))
    (hinformed : Informed document template item names shared state)
    (h : extractOperation ⟨document, cancelAt⟩ template shared walked method operation state =
      .ok () state') :
    state.Files document
      (if (state.index.endpointAt walked.terminal method).isSome then
          [.duplicateMethod template method]
        else document.operationComplaints template item method operation) state' := by
  have hterminal := PathIndex.lt_of_descend state.index.root_lt hfollows.terminal
  obtain ⟨hknown, rfl⟩ | ⟨hfree, -⟩ := extractOperation_ok hrequests hterminal h
  · rw [if_pos hknown]
    exact .record rfl state
  · rw [hfree]
    exact (files_insertBuilt hrequests hproper hfollows hinformed hfree h).1

/-- **The operations of a path** are complained of: those for methods that are known are duplicates.

**Proof sketch.** Induction on the operations. After an operation was taken up, or was found to be a
duplicate, its method is known. -/
theorem files_extractOperations {operations : List (HttpMethod × Operation)}
    {known : HttpMethod → Bool} (hpath : (template, item) ∈ document.pathEntries)
    (hoperations : operations ⊆ item.operations)
    (hshared : ∀ request ∈ document.parameterRequests template item.parameters,
      request.1 ∈ names)
    (hproper : state.index.Proper)
    (hfollows : walked.Follows state.index (templateSegments template))
    (hinformed : Informed document template item names shared state)
    (hknown : state.resolver.cancelled = false → ∀ method,
      (state.index.endpointAt walked.terminal method).isSome = known method)
    (h : extractOperations ⟨document, cancelAt⟩ template shared walked operations state =
      .ok () state') :
    state.Files document (document.operationsComplaints template item known operations) state' := by
  induction operations generalizing state known with
  | nil =>
    cases h
    exact .refl document _
  | cons entry rest ih =>
    obtain ⟨method, operation⟩ := entry
    obtain ⟨hfirst, hrest⟩ := List.cons_subset.1 hoperations
    rw [extractOperations_eq] at h
    rcases untilCancelled_cons_iff.1 h with ⟨hcancelled, rfl⟩ | ⟨hactive, _, s, hstep, hothers⟩
    · refine (ExtractionState.Files.refl document _).congr fun hend => ?_
      rw [hcancelled] at hend
      cases hend
    rw [← extractOperations_eq] at hothers
    have hrequests := List.Subset.trans (Document.operationRequests_subset hfirst)
      (Document.pathRequests_subset hpath)
    have hfiles := files_extractOperation hrequests hproper hfollows hinformed hstep
    rw [hknown hactive] at hfiles
    have hterminal := PathIndex.lt_of_descend state.index.root_lt hfollows.terminal
    have hfilled := (extractOperation_yields (.any _) hpath hfirst hshared hterminal
      hinformed).answer hstep
    obtain ⟨rfl, hcoherent⟩ := hinformed hactive
    have hcoherent' : document.CoherentUnlessCancelled names s :=
      coherent_extractOperation hpath hfirst hshared state _ s (fun _ => hcoherent) hstep
    refine hfiles.trans (ih hrest (hfilled.outline.proper hproper)
      (hfollows.mono hfilled.outline.toExtends) (fun hend => ⟨rfl, hcoherent' hend⟩)
      (fun hend other => ?_) hothers)
    rw [hfilled.endpointAt hend, if_pos rfl, Option.isSome_or, hknown hactive, Document.offer]
    by_cases hsame : method = other
    · simp [hsame]
    · simp [hsame, Ne.symm hsame]

end Endpoints

/-! ## Paths -/

section Paths

variable {document : Document} {cancelAt : Option Nat} {template : String} {item : PathItem}
  {done : List (String × PathItem)} {state state' : ExtractionState}

/-- The methods that a node has endpoints for are those that are taken. -/
theorem isSome_endpointAt_eq_taken {index : PathIndex} {id : Nat} {method : HttpMethod}
    (hindexed : document.Indexed done state) (hend : state.resolver.cancelled = false)
    (hextends : state.index.Extends index)
    (hsame : index.endpointAt id method = state.index.endpointAt id method)
    (hbranching : index.Branching) (hfind : index.find? template = some id) :
    (index.endpointAt id method).isSome = taken done template method := by
  have hkept : ∀ entry ∈ done, document.contribution index id method entry =
      document.contribution state.index id method entry := fun entry hentry =>
    Document.contribution_of_extends hextends
      (hindexed.spans.found entry.1 (List.mem_map_of_mem hentry)) id method
  rw [hsame, hindexed.endpointAt hend, ← isSome_findSome?_contribution hbranching hfind,
    ← List.head?_filterMap, ← List.head?_filterMap, List.filterMap_congr hkept]

/-- **A path is complained of** as it deserves after those before it. -/
theorem files_extractPath (hpath : (template, item) ∈ document.pathEntries)
    (hindexed : document.Indexed done state) (hbranching : state.index.Branching)
    (h : extractPath ⟨document, cancelAt⟩ template item state = .ok () state') :
    state.Files document (document.pathComplaints done template item) state' := by
  have hrequests := (List.append_subset.1 (Document.pathRequests_subset hpath)).1
  obtain ⟨shared, s₁, hshared, h⟩ := bind_eq_ok_iff.1 h
  obtain ⟨answer, s₂, hwalk, h⟩ := bind_eq_ok_iff.1 h
  have hentered := entered_of_walk hpath hindexed.spans.proper hindexed.coherent hshared hwalk
  have hbuilds : state.Builds s₁ := ((building_builds (.any _) state).collectParameters hrequests
    (fun _ _ => trivial) 0 ∅ state (.refl state)).answer hshared
  have harrives : Arrives template [] (templateSegments template) s₁ s₂ answer :=
    follows_walkSegments (hbuilds.outline.proper hindexed.spans.proper) (.start _) hwalk
  have hfiles := (filing_collectParameters cancelAt _ _ _).files hshared
  have hwalked : s₁.Grows s₂ := grows_walkSegments document cancelAt hwalk
  refine hfiles.trans ?_
  cases answer with
  | none =>
    obtain ⟨segment, hrepeated, hresolver⟩ := harrives
    rw [show firstRepeated? [] (templateSegments template) = some segment from hrepeated]
    cases h
    refine ⟨hwalked, fun _ => ?_⟩
    rw [hresolver]
    exact Document.complaintsIn_record rfl _
  | some walked =>
    obtain ⟨hrepeated, hresolver, hfollows⟩ := harrives
    rw [show firstRepeated? [] (templateSegments template) = none from hrepeated]
    obtain ⟨-, hfind, -, hinformed⟩ := hentered.accepted walked rfl
    have hproper : s₂.index.Proper := hentered.laid.proper
    have hbranching' : s₂.index.Branching :=
      ((growsTo_collectParameters hrequests hshared).trans (growsTo_walkTemplate hwalk)).branching
        hbranching
    have hsilent : s₁.Files document [] s₂ := ⟨hwalked, fun _ => by
      rw [hresolver, List.append_nil]⟩
    refine hsilent.trans (files_extractOperations hpath (List.Subset.refl _)
      (fun request hrequest => List.mem_map_of_mem hrequest) hproper hfollows hinformed
      (fun hend method => ?_) h)
    exact isSome_endpointAt_eq_taken hindexed ((hfiles.grows.trans hwalked).not_cancelled hend)
      hentered.laid.toExtends (hentered.laid.endpointAt _ _) hbranching' hfind

/-- **Paths are complained of** as they deserve, one after the other. -/
theorem files_extractPaths {paths : List (String × PathItem)}
    (hpaths : paths ⊆ document.pathEntries) (hindexed : document.Indexed done state)
    (hbranching : state.index.Branching)
    (h : extractPaths ⟨document, cancelAt⟩ paths state = .ok () state') :
    state.Files document (document.complaintsAfter done paths) state' := by
  induction paths generalizing done state with
  | nil =>
    cases h
    exact .refl document _
  | cons entry rest ih =>
    obtain ⟨template, item⟩ := entry
    obtain ⟨hfirst, hrest⟩ := List.cons_subset.1 hpaths
    rw [extractPaths_eq] at h
    rcases untilCancelled_cons_iff.1 h with ⟨hcancelled, rfl⟩ | ⟨hactive, _, s, hstep, hothers⟩
    · refine (ExtractionState.Files.refl document _).congr fun hend => ?_
      rw [hcancelled] at hend
      cases hend
    rw [← extractPaths_eq] at hothers
    have hadvances := (extractPath_yields (.any _) hfirst hindexed.spans.proper
      hindexed.coherent).answer hstep
    have hnext := hindexed.next hadvances
      (coherent_extractPath hfirst state _ s hindexed.coherent hstep)
      (grows_extractPath hfirst hstep)
    exact (files_extractPath hfirst hindexed hbranching hstep).trans
      (ih hrest hnext ((growsTo_extractPath hfirst hstep).branching hbranching) hothers)

/-- The components are resolved without complaints. -/
theorem filing_extractComponents (components : List (String × Node)) :
    Filing document [] (extractComponents ⟨document, cancelAt⟩ components) := by
  induction components with
  | nil => exact .pure _
  | cons entry rest ih =>
    exact .unlessCancelled ((Filing.resolveComponent entry.1 entry.2).after fun _ => ih)

end Paths

end Extraction

/-- **The complaints that an extraction records** that was not cancelled are those that its document
gives rise to, each once and in their order. -/
theorem complaints_of_extract {document : Document} {options : Options} {state : ExtractionState}
    (h : extract document options = .ok state) (hend : state.resolver.cancelled = false) :
    document.complaintsIn state.resolver.diagnostics = document.complaints := by
  obtain ⟨passed, hpaths, hcomponents⟩ := extract_passes h
  have hfiles := Extraction.files_extractPaths (List.Subset.refl _) indexed_initialState
    PathIndex.branching_empty hpaths
  have hall : options.initialState.Files document document.complaints state := by
    rcases hcomponents with ⟨-, hcomponents⟩ | ⟨-, rfl⟩
    · have hlast := (Extraction.filing_extractComponents _).files hcomponents
      exact List.append_nil document.complaints ▸ hfiles.trans hlast
    · exact hfiles
  exact hall.filed hend

/-- **The diagnostics of a sort** that blames no schema are the complaints of that sort. -/
theorem filter_diagnostics_of_extract {document : Document} {options : Options}
    {state : ExtractionState} {sort : Diagnostic → Bool}
    (h : extract document options = .ok state) (hend : state.resolver.cancelled = false)
    (hsort : ∀ diagnostic, sort diagnostic = true → document.blamesSchema diagnostic = false) :
    state.resolver.diagnostics.filter sort = document.complaints.filter sort := by
  rw [← complaints_of_extract h hend, Document.complaintsIn, List.filter_filter]
  refine List.filter_congr fun diagnostic _ => ?_
  cases hof : sort diagnostic with
  | false => rfl
  | true => rw [hsort diagnostic hof, Bool.not_false, Bool.and_self]

/-- **The diagnostics of a sort that concerns an operation** that provides an endpoint are the
complaints of that sort which the operation gives reason for. -/
theorem Document.Provides.filter_diagnostics {document : Document} {options : Options}
    {state : ExtractionState} {id : Nat} {method : HttpMethod} {template : String}
    {item : PathItem} {operation : Operation} {sort : Diagnostic → Bool}
    (h : document.Provides state.index id method template item operation)
    (hextract : extract document options = .ok state) (hend : state.resolver.cancelled = false)
    (hsort : ∀ diagnostic, sort diagnostic = true →
      diagnostic.Concerns template method ∧ document.blamesSchema diagnostic = false) :
    state.resolver.diagnostics.filter sort =
      (unboundComplaints template method (document.parametersOf template item operation).values ++
        (document.bodyComplaints template method operation ++
          document.responseComplaints template method operation.responseEntries)).filter sort := by
  have hbranching := (growsTo_of_extract hextract).branching PathIndex.branching_empty
  rw [filter_diagnostics_of_extract hextract hend fun diagnostic hof => (hsort diagnostic hof).2]
  exact h.filter_complaints hbranching fun diagnostic hof => (hsort diagnostic hof).1

end ApiCatalog
