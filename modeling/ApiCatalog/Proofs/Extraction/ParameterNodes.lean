import ApiCatalog.Proofs.Extraction.Recording
import ApiCatalog.Proofs.PathIndex.Persistence

set_option autoImplicit false

/-!
# Bindings of a pass

In a pass over the paths a node is bound when an endpoint is stored, by a path parameter of that
endpoint; and the path parameters of an endpoint that is stored are bound. An operation whose method
is known binds nothing.

## Main definitions

* `WalkedPath.Gains`: an endpoint is stored that has a path parameter for a node.
* `WalkedPath.Binds`: what is bound goes along with what is stored.

## Main results

* `Extraction.buildEndpoint_index`: what building an endpoint changes in the index.
* `Extraction.binds_extractOperation`, `Extraction.binds_extractOperations`: operations bind along
  with what they store.
* `Extraction.binds_extractPath`: so does a path.
-/

namespace ApiCatalog

/-! ## Bindings that go along with endpoints -/

namespace WalkedPath

/-- Between two indices the node that a walk has led to gains an endpoint, one of whose path
parameters has the name under which the walk knows a node. -/
structure Gains (walked : WalkedPath) (index index' : PathIndex) (id : Nat) (endpoint : Endpoint)
    (parameter : EndpointParameter) : Prop where
  missing : index.endpointAt walked.terminal endpoint.method = none
  stored : index'.endpointAt walked.terminal endpoint.method = some endpoint
  carried : parameter ∈ endpoint.parameters.values
  location : parameter.location = .path
  known : walked.parameters.find? parameter.name = some id

/-- An endpoint is gained between indices if it is gained in between. -/
theorem Gains.mono {walked : WalkedPath} {index index₁ index₂ index' : PathIndex} {id : Nat}
    {endpoint : Endpoint} {parameter : EndpointParameter}
    (h : walked.Gains index₁ index₂ id endpoint parameter) (hbefore : index.GrowsTo index₁)
    (hafter : index₂.GrowsTo index') : walked.Gains index index' id endpoint parameter where
  missing := by
    by_contra hsome
    obtain ⟨old, hold⟩ := Option.ne_none_iff_exists'.1 hsome
    cases h.missing.symm.trans (hbefore.endpointAt hold)
  stored := hafter.endpointAt h.stored
  carried := h.carried
  location := h.location
  known := h.known

/-- Bindings go along with endpoints while an index grows whose nodes stay the same: what is bound
was bound before, or it belongs to an endpoint that is gained; and where one is gained, the nodes of
its path parameters are bound. -/
structure Binds (walked : WalkedPath) (index index' : PathIndex) : Prop where
  grows : index.GrowsTo index'
  outline : index.SameOutline index'
  stems : ∀ {id schema}, index'.boundAt id = some schema → index.boundAt id = some schema ∨
    ∃ endpoint parameter, walked.Gains index index' id endpoint parameter ∧
      parameter.schema = schema
  bound : ∀ {id endpoint parameter}, walked.Gains index index' id endpoint parameter →
    (index'.boundAt id).isSome = true

namespace Binds

variable {walked : WalkedPath} {index index₁ index₂ : PathIndex}

/-- Nothing is bound where nothing happens. -/
theorem refl (walked : WalkedPath) (index : PathIndex) : walked.Binds index index where
  grows := .refl index
  outline := rfl
  stems := .inl
  bound h := nomatch h.missing.symm.trans h.stored

/-- **Bindings go along with endpoints**, and then with others. -/
theorem trans (h₁ : walked.Binds index index₁) (h₂ : walked.Binds index₁ index₂) :
    walked.Binds index index₂ where
  grows := h₁.grows.trans h₂.grows
  outline := h₂.outline.trans h₁.outline
  stems := by
    intro id schema hbound
    rcases h₂.stems hbound with hbound | ⟨endpoint, parameter, hgains, hschema⟩
    · refine (h₁.stems hbound).imp_right ?_
      rintro ⟨endpoint, parameter, hgains, hschema⟩
      exact ⟨endpoint, parameter, hgains.mono (.refl index) h₂.grows, hschema⟩
    · exact .inr ⟨endpoint, parameter, hgains.mono h₁.grows (.refl index₂), hschema⟩
  bound := by
    intro id endpoint parameter hgains
    cases hmiddle : index₁.endpointAt walked.terminal endpoint.method with
    | none => exact h₂.bound { hgains with missing := hmiddle }
    | some found =>
      -- the endpoint that is there in the end was there before
      cases (h₂.grows.endpointAt hmiddle).symm.trans hgains.stored
      obtain ⟨schema, hschema⟩ :=
        Option.isSome_iff_exists.1 (h₁.bound { hgains with stored := hmiddle })
      exact Option.isSome_iff_exists.2 ⟨schema, h₂.grows.boundAt hschema⟩

end Binds

end WalkedPath

namespace Extraction

variable {document : Document} {cancelAt : Option Nat} {template : String} {item : PathItem}
  {method : HttpMethod} {operation : Operation} {shared : ParameterMap} {walked : WalkedPath}
  {state state' : ExtractionState} {id : Nat} {schema : ModelName}

/-! ## Building an endpoint -/

/-- The collection of the parts of an endpoint leaves the index alone. -/
theorem collecting_index (document : Document) (cancelAt : Option Nat) (index : PathIndex) :
    Collecting document cancelAt cancelAt (fun _ => True) fun _ step _ =>
      Preserves (fun state => state.index = index) step := by
  refine collecting_preserves (fun diagnostic => ?_) fun {name node} _ => ?_
  · rintro state _ state' hindex hstep
    cases hstep
    exact hindex
  · intro state _ state' hindex hstep
    obtain ⟨resolution, resolver, -, rfl⟩ := resolveBound_ok hstep
    exact hindex

/-- **Building an endpoint** changes the index by binding its path parameters only. -/
theorem buildEndpoint_index {endpoint : Endpoint}
    (hrequests : document.operationRequests template method operation ⊆ document.requests)
    (h : buildEndpoint ⟨document, cancelAt⟩ template method operation shared walked state =
      .ok endpoint state') :
    ∃ s s', s.index = state.index ∧
      bindParameters template method walked endpoint.parameters.values s = .ok () s' ∧
      state'.index = s'.index := by
  rw [Document.operationRequests, List.append_subset, List.append_subset] at hrequests
  obtain ⟨hparameters, hbodies, hresponses⟩ := hrequests
  obtain ⟨own, s₁, hown, h⟩ := bind_eq_ok_iff.1 h
  obtain ⟨_, s₂, hbind, h⟩ := bind_eq_ok_iff.1 h
  obtain ⟨requestBodies, s₃, hbodiesRun, h⟩ := bind_eq_ok_iff.1 h
  obtain ⟨responses, s₄, hresponsesRun, h⟩ := bind_eq_ok_iff.1 h
  cases h
  have hindex := collecting_index document cancelAt
  have hcollected : s₁.index = state.index :=
    (hindex _).collectParameters hparameters (fun _ _ => trivial) 0 ∅ state _ s₁ rfl hown
  have hbodiesKept : s₃.index = s₂.index :=
    (hindex _).collectRequestBodies hbodies (fun _ _ => trivial) s₂ _ s₃ rfl hbodiesRun
  have hkept : state'.index = s₃.index :=
    (hindex _).collectResponses hresponses (fun _ _ => trivial) ∅ s₃ _ state' rfl hresponsesRun
  exact ⟨s₁, s₂, hcollected, hbind, hkept.trans hbodiesKept⟩

/-- A node that is bound after a path parameter was bound had been bound before, or the parameter
has the name under which the walk knows it. -/
theorem stems_bindParameter {parameter : EndpointParameter}
    (h : bindParameter template method walked parameter state = .ok () state')
    (hbound : state'.index.boundAt id = some schema) :
    state.index.boundAt id = some schema ∨
      (walked.parameters.find? parameter.name = some id ∧ parameter.schema = schema) := by
  rw [bindParameter, bindParameterWith] at h
  cases hfind : walked.parameters.find? parameter.name with
  | none =>
    rw [hfind] at h
    cases h
    exact .inl hbound
  | some known =>
    rw [hfind] at h
    obtain ⟨found, s, hchange, hlast⟩ := bind_eq_ok_iff.1 h
    rcases changeIndex_ok hchange with ⟨error, rfl, rfl⟩ | ⟨answer, index, hbind, rfl, rfl⟩
    · cases hlast
      exact .inl hbound
    · cases hlast
      refine (PathIndex.boundAt_bind_cases hbind hbound).imp_right ?_
      rintro ⟨rfl, rfl⟩
      exact ⟨rfl, rfl⟩

/-- **A node that is bound after path parameters were bound** had been bound before, or one of them
has the name under which the walk knows it. -/
theorem stems_bindParameters {parameters : List EndpointParameter}
    (h : bindParameters template method walked parameters state = .ok () state')
    (hbound : state'.index.boundAt id = some schema) :
    state.index.boundAt id = some schema ∨ ∃ parameter ∈ parameters,
      parameter.location = .path ∧ walked.parameters.find? parameter.name = some id ∧
        parameter.schema = schema := by
  induction parameters generalizing state with
  | nil =>
    cases h
    exact .inl hbound
  | cons parameter rest ih =>
    rw [bindParameters, bindParametersWith] at h
    by_cases hlocation : parameter.location = .path
    · rw [if_pos hlocation] at h
      obtain ⟨_, s, hfirst, hrest⟩ := bind_eq_ok_iff.1 h
      rcases ih hrest with hbound | ⟨other, hother, hof⟩
      · refine (stems_bindParameter hfirst hbound).imp_right fun hof => ?_
        exact ⟨parameter, List.mem_cons_self, hlocation, hof⟩
      · exact .inr ⟨other, List.mem_cons_of_mem _ hother, hof⟩
    · rw [if_neg hlocation] at h
      refine (ih h).imp_right ?_
      rintro ⟨other, hother, hof⟩
      exact ⟨other, List.mem_cons_of_mem _ hother, hof⟩

/-! ## Operations and paths -/

/-- **An operation binds along with what it stores.** If its method is known it does nothing;
otherwise its endpoint is stored, and the path parameters of this endpoint are what it binds. -/
theorem binds_extractOperation
    (hrequests : document.operationRequests template method operation ⊆ document.requests)
    (hproper : state.index.Proper)
    (hfollows : walked.Follows state.index (templateSegments template))
    (h : extractOperation ⟨document, cancelAt⟩ template shared walked method operation state =
      .ok () state') : walked.Binds state.index state'.index := by
  have hgrows := growsTo_extractOperation hrequests h
  have hterminal := PathIndex.lt_of_descend state.index.root_lt hfollows.terminal
  obtain ⟨-, rfl⟩ | ⟨hfree, endpoint, s, index, rfl, hbuild, hinsert, rfl⟩ :=
    extractOperation_ok hrequests hterminal h
  · exact .refl walked _
  have hbuilds : state.Builds s := ((building_builds (.any _) state).buildEndpoint hrequests
    (fun _ _ => trivial) shared walked state (.refl state)).answer hbuild
  have houtline := PathIndex.sameOutline_insertEndpoint hinsert
  have hendpoints := PathIndex.endpointAt_insertEndpoint hinsert
  have hbound := PathIndex.boundAt_insertEndpoint hinsert
  obtain ⟨s₁, s₂, hstart, hbind, hindex⟩ := buildEndpoint_index hrequests hbuild
  refine ⟨hgrows, houtline.trans hbuilds.outline, fun {id schema} hschema => ?_,
    fun {id gained parameter} hgains => ?_⟩
  · rw [hbound, hindex] at hschema
    rw [← hstart]
    refine (stems_bindParameters hbind hschema).imp_right ?_
    rintro ⟨parameter, hparameter, hlocation, hknown, rfl⟩
    refine ⟨endpoint, parameter, ⟨hstart ▸ hfree, ?_, hparameter, hlocation, hknown⟩, rfl⟩
    rw [hendpoints, if_pos ⟨rfl, rfl⟩]
  · -- no other endpoint is gained than the one that was inserted
    have hstored := hgains.stored
    rw [hendpoints] at hstored
    split at hstored
    · cases hstored
      rw [hbound, hindex]
      refine (files_bindParameters document (hstart ▸ hproper) (hstart ▸ hfollows) hbind).2.2
        parameter hgains.carried hgains.location id hgains.known
    · rw [hbuilds.endpointAt, hgains.missing] at hstored
      cases hstored

/-- **Operations bind along with what they store.** -/
theorem binds_extractOperations {operations : List (HttpMethod × Operation)}
    (hpath : (template, item) ∈ document.pathEntries) (hoperations : operations ⊆ item.operations)
    (hproper : state.index.Proper)
    (hfollows : walked.Follows state.index (templateSegments template))
    (h : extractOperations ⟨document, cancelAt⟩ template shared walked operations state =
      .ok () state') : walked.Binds state.index state'.index := by
  induction operations generalizing state with
  | nil =>
    cases h
    exact .refl walked _
  | cons entry rest ih =>
    obtain ⟨hfirst, hrest⟩ := List.cons_subset.1 hoperations
    rw [extractOperations_eq] at h
    rcases untilCancelled_cons_iff.1 h with ⟨-, rfl⟩ | ⟨-, _, s, hstep, hothers⟩
    · exact .refl walked _
    · rw [← extractOperations_eq] at hothers
      have hrequests := List.Subset.trans (Document.operationRequests_subset hfirst)
        (Document.pathRequests_subset hpath)
      have hbinds := binds_extractOperation hrequests hproper hfollows hstep
      exact hbinds.trans (ih hrest (hbinds.outline.proper hproper)
        (hfollows.mono hbinds.outline.toExtends) hothers)

/-- A walk binds nothing. -/
theorem boundAt_walkTemplate {answer : Option WalkedPath}
    (h : walkTemplate template state = .ok answer state') (id : Nat) :
    state'.index.boundAt id = state.index.boundAt id := by
  have hkept : Preserves (fun s => s.index.boundAt id = state.index.boundAt id)
      (walkSegments template (templateSegments template) ⟨PathIndex.root, ∅⟩) := by
    refine preserves_walkSegments (fun diagnostic => ?_) (fun segment _ parent kind => ?_) _
    · rintro s _ s' hbound hstep
      cases hstep
      exact hbound
    · intro s _ s' hbound hstep
      rcases changeIndex_ok hstep with ⟨-, -, rfl⟩ | ⟨added, index, hadd, -, rfl⟩
      · exact hbound
      · exact (PathIndex.boundAt_getOrAdd hadd id).trans hbound
  exact hkept state answer state' rfl h

/-- **A path binds along with what it stores**: its template binds and stores nothing, and if it can
be followed its operations bind along with what they store. -/
theorem binds_extractPath (hpath : (template, item) ∈ document.pathEntries)
    (hproper : state.index.Proper)
    (h : extractPath ⟨document, cancelAt⟩ template item state = .ok () state') :
    ∃ middle, (∀ id, middle.boundAt id = state.index.boundAt id) ∧
      (∀ id method, middle.endpointAt id method = state.index.endpointAt id method) ∧
      (state'.index = middle ∨ ∃ walked : WalkedPath,
        walked.Follows state'.index (templateSegments template) ∧
          walked.Binds middle state'.index) := by
  have hrequests := (List.append_subset.1 (Document.pathRequests_subset hpath)).1
  obtain ⟨shared, s₁, hshared, h⟩ := bind_eq_ok_iff.1 h
  obtain ⟨answer, s₂, hwalk, h⟩ := bind_eq_ok_iff.1 h
  have hindex : s₁.index = state.index := (collecting_index document cancelAt _).collectParameters
    hrequests (fun _ _ => trivial) 0 ∅ state _ s₁ rfl hshared
  have hproper₁ : s₁.index.Proper := hindex ▸ hproper
  have hyields : Yields (walkTemplate template) s₁ (Walked template (templateSegments template)
      ⟨PathIndex.root, ∅⟩ s₁) fun _ => True := walkTemplate_yields hproper₁
  have hlaid := (hyields.answer hwalk).laid
  refine ⟨s₂.index, fun id => hindex ▸ boundAt_walkTemplate hwalk id,
    fun id method => hindex ▸ hlaid.endpointAt id method, ?_⟩
  have harrives : Arrives template [] (templateSegments template) s₁ s₂ answer :=
    follows_walkSegments hproper₁ (.start _) hwalk
  cases answer with
  | none =>
    cases h
    exact .inl rfl
  | some walked =>
    have hfollows := harrives.2.2
    have hbinds := binds_extractOperations hpath (List.Subset.refl _) hlaid.proper hfollows h
    exact .inr ⟨walked, hfollows.mono hbinds.outline.toExtends, hbinds⟩

end Extraction

end ApiCatalog
