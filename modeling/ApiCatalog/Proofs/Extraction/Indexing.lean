import ApiCatalog.Proofs.Extraction.Templates
import ApiCatalog.Proofs.Resolution.Sessions
import Mathlib.Data.List.Nodup

set_option autoImplicit false

/-!
# The index of a document

A pass over the paths of a document lays their templates into the index, and puts the endpoints of
a path at the node that its template leads to. Different templates may lead to the same node: then
the first of them that declares a method provides the endpoint for it.

## Main definitions

* `ExtractionState.Filled`: a state after endpoints were put at a node.
* `PathIndex.Spans`: the templates whose segments make up an index.
* `Document.contribution`: the endpoint that a path declares for a node of an index.
* `Document.Indexed`: the index after some paths of a document.
* `Extraction.Rounds`: the states that passes over the paths lead to from a new extraction.

## Main results

* `Extraction.extractOperations_yields`: what becomes of the operations of a path.
* `Extraction.extractPaths_yields`: what becomes of the paths of a document.
* `ApiCatalog.indexed_of_rounds`: the index and the reports after a pass over all paths.
-/

namespace ApiCatalog

/-! ## Operations of a path -/

/-- Among operations that are taken up method by method, that of a method comes first. -/
theorem PathItem.find?_operations (item : PathItem) (method : HttpMethod) :
    item.operations.find? (fun entry => entry.1 = method) =
      (item.operation? method).map fun operation => (method, operation) := by
  have hoffered : ∀ methods : List HttpMethod,
      (methods.filterMap fun offered =>
          (item.operation? offered).map fun operation => (offered, operation)).find?
        (fun entry => entry.1 = method) =
      if method ∈ methods then (item.operation? method).map fun operation => (method, operation)
      else none := by
    intro methods
    induction methods with
    | nil => rfl
    | cons first rest ih =>
      rw [List.filterMap_cons]
      by_cases hfirst : first = method
      · subst hfirst
        rw [if_pos List.mem_cons_self]
        cases hoperation : item.operation? first with
        | some operation => simp
        | none =>
          rw [hoperation] at ih
          simpa using ih
      · have hmem : method ∈ first :: rest ↔ method ∈ rest := by
          simp [Ne.symm hfirst]
        simp only [hmem, ← ih]
        cases item.operation? first <;> simp [hfirst]
  have hmethod : method ∈ PathItem.offered := by cases method <;> decide
  rw [PathItem.operations, hoffered, if_pos hmethod]

namespace Document

/-- The endpoint that the first of some operations provides for a method. -/
def offer (document : Document) (template : String) (item : PathItem)
    (operations : List (HttpMethod × Operation)) (method : HttpMethod) : Option Endpoint :=
  (operations.find? fun entry => entry.1 = method).map fun entry =>
    document.endpoint template item method entry.2

/-- The first operation takes precedence over the others. -/
theorem offer_cons (document : Document) (template : String) (item : PathItem)
    (entry : HttpMethod × Operation) (rest : List (HttpMethod × Operation)) (method : HttpMethod) :
    document.offer template item (entry :: rest) method =
      (document.offer template item [entry] method).or
        (document.offer template item rest method) := by
  simp only [offer, List.find?_cons]
  split <;> rfl

end Document

namespace ExtractionState

/-- A state after endpoints were put at a node that had none for their methods: the index keeps its
outline, and no template was reported. What is offered counts unless the extraction was
cancelled. -/
structure Filled (terminal : Nat) (offered : HttpMethod → Option Endpoint)
    (origin state : ExtractionState) : Prop where
  outline : origin.index.SameOutline state.index
  repeated : state.resolver.repeated = origin.resolver.repeated
  endpointAt : state.resolver.cancelled = false → ∀ id method,
    state.index.endpointAt id method = (origin.index.endpointAt id method).or
      (if id = terminal then offered method else none)

/-- Endpoints are put at a node, and then others. -/
theorem Filled.trans {terminal : Nat} {offered offered' : HttpMethod → Option Endpoint}
    {origin middle state : ExtractionState} (h₁ : Filled terminal offered origin middle)
    (h₂ : Filled terminal offered' middle state)
    (hback : state.resolver.cancelled = false → middle.resolver.cancelled = false) :
    Filled terminal (fun method => (offered method).or (offered' method)) origin state where
  outline := h₂.outline.trans h₁.outline
  repeated := h₂.repeated.trans h₁.repeated
  endpointAt := by
    intro hend id method
    rw [h₂.endpointAt hend, h₁.endpointAt (hback hend), Option.or_assoc]
    split <;> rfl

end ExtractionState

namespace Extraction

variable {document : Document} {cancelAt : Option Nat} {excuse : Abort → Prop} {template : String}
  {item : PathItem} {names : List ModelName} {shared : ParameterMap} {walked : WalkedPath}
  {state : ExtractionState}

/-- An endpoint is built for the method that is asked for. -/
theorem buildEndpoint_method {context : Context} {method : HttpMethod} {operation : Operation}
    {endpoint : Endpoint} {state' : ExtractionState}
    (h : buildEndpoint context template method operation shared walked state =
      .ok endpoint state') : endpoint.method = method := by
  obtain ⟨own, s₁, -, h⟩ := bind_eq_ok_iff.1 h
  obtain ⟨_, s₂, -, h⟩ := bind_eq_ok_iff.1 h
  obtain ⟨bodies, s₃, -, h⟩ := bind_eq_ok_iff.1 h
  obtain ⟨responses, s₄, -, h⟩ := bind_eq_ok_iff.1 h
  cases h
  rfl

/-- The shared parameters are those of the path, and the state is coherent, unless the extraction
was cancelled. -/
def Informed (document : Document) (template : String) (item : PathItem) (names : List ModelName)
    (shared : ParameterMap) (state : ExtractionState) : Prop :=
  state.resolver.cancelled = false →
    shared = document.parameterMap template item.parameters ∧ document.Coherent names state

/-- The endpoint of an operation is put at a node that has none for its method. -/
theorem insertBuilt_yields {method : HttpMethod} {operation : Operation}
    (hexcused : Excused ⟨document, cancelAt⟩ excuse)
    (hpath : (template, item) ∈ document.pathEntries)
    (hoperation : (method, operation) ∈ item.operations)
    (hshared : ∀ request ∈ document.parameterRequests template item.parameters,
      request.1 ∈ names)
    (hterminal : walked.terminal < state.index.parts.length)
    (hinformed : Informed document template item names shared state)
    (hfree : state.index.endpointAt walked.terminal method = none) :
    Yields (do
        let endpoint ← buildEndpoint ⟨document, cancelAt⟩ template method operation shared walked
        match ← changeIndex fun index =>
            (index.insertEndpoint walked.terminal endpoint).map (((), ·)) with
        | .ok () => pure ()
        | .error error => recordIndexError template error)
      state
      (fun _ state' => state.Filled walked.terminal
        (document.offer template item [(method, operation)]) state') excuse := by
  have hrequests : document.operationRequests template method operation ⊆ document.requests :=
    List.Subset.trans (Document.operationRequests_subset hoperation)
      (Document.pathRequests_subset hpath)
  have hbuilds := (building_builds hexcused state).buildEndpoint hrequests
    (fun abort haborts => hexcused.operation hpath hoperation haborts) shared walked
  refine (hbuilds state (.refl state)).bind fun endpoint s hbuild hs => ?_
  obtain rfl := buildEndpoint_method hbuild
  have hfree' : s.index.endpointAt walked.terminal endpoint.method = none :=
    (hs.endpointAt _ _).trans hfree
  obtain ⟨index, hinsert, houtline, hendpoints⟩ :=
    PathIndex.insertEndpoint_of_free (hs.outline.length_eq.symm ▸ hterminal) hfree'
  have hfilled : state.Filled walked.terminal
      (document.offer template item [(endpoint.method, operation)]) { s with index } := by
    refine ⟨houtline.trans hs.outline, hs.repeated, fun hend id method => ?_⟩
    have hstart : state.resolver.cancelled = false :=
      (grows_buildEndpoint hrequests hbuild).not_cancelled hend
    obtain ⟨rfl, hcoherent⟩ := hinformed hstart
    have hdeclared := (buildEndpoint_ok hrequests hbuild hend hcoherent hshared).1
    rw [hendpoints, hs.endpointAt]
    by_cases hid : id = walked.terminal
    · subst hid
      by_cases hmethod : endpoint.method = method
      · subst hmethod
        rw [if_pos ⟨rfl, rfl⟩, hfree, if_pos rfl]
        simp [Document.offer, ← hdeclared]
      · rw [if_neg fun h => hmethod h.2, if_pos rfl]
        simp [Document.offer, hmethod]
    · rw [if_neg fun h => hid h.1, if_neg hid, Option.or_none]
  have hchange : Yields (changeIndex fun index =>
      (index.insertEndpoint walked.terminal endpoint).map (((), ·))) s
      (fun answer s' => answer = .ok () ∧ s' = { s with index }) excuse := by
    refine .changeIndex (fun error hrefused => ?_) fun value made hmade => ?_
    · rw [hinsert] at hrefused
      cases hrefused
    · rw [hinsert] at hmade
      cases hmade
      exact ⟨rfl, rfl⟩
  refine hchange.bind ?_
  rintro _ _ - ⟨rfl, rfl⟩
  exact .pure hfilled

/-- **What becomes of an operation**: unless the node has an endpoint for its method, it gets the
one that is declared. -/
theorem extractOperation_yields {method : HttpMethod} {operation : Operation}
    (hexcused : Excused ⟨document, cancelAt⟩ excuse)
    (hpath : (template, item) ∈ document.pathEntries)
    (hoperation : (method, operation) ∈ item.operations)
    (hshared : ∀ request ∈ document.parameterRequests template item.parameters,
      request.1 ∈ names)
    (hterminal : walked.terminal < state.index.parts.length)
    (hinformed : Informed document template item names shared state) :
    Yields (extractOperation ⟨document, cancelAt⟩ template shared walked method operation) state
      (fun _ state' => state.Filled walked.terminal
        (document.offer template item [(method, operation)]) state') excuse := by
  have hknown : Yields (hasEndpoint walked.terminal method) state
      (fun answer s => answer = (state.index.endpointAt walked.terminal method).isSome ∧
        state = s) excuse := by
    refine ⟨fun hstep => ?_, fun hstep => nomatch hstep⟩
    cases hstep
    exact ⟨rfl, rfl⟩
  refine hknown.bind ?_
  rintro _ _ - ⟨rfl, rfl⟩
  refine .ite (fun hsome => .record ⟨rfl, ?_, fun hend id other => ?_⟩) fun hnone => ?_
  · simp [ResolverState.repeated, Diagnostic.repeated?]
  · show state.index.endpointAt id other = _
    obtain ⟨endpoint, hendpoint⟩ := Option.isSome_iff_exists.1 hsome
    split
    · next hid =>
      subst hid
      by_cases hmethod : method = other
      · subst hmethod
        rw [hendpoint, Option.some_or]
      · simp [Document.offer, hmethod]
    · rw [Option.or_none]
  · exact insertBuilt_yields hexcused hpath hoperation hshared hterminal hinformed
      (by simpa using hnone)

/-- **What becomes of the operations of a path**: each method of which the node has no endpoint gets
the one that the first operation declares. -/
theorem extractOperations_yields {operations : List (HttpMethod × Operation)}
    (hexcused : Excused ⟨document, cancelAt⟩ excuse)
    (hpath : (template, item) ∈ document.pathEntries) (hoperations : operations ⊆ item.operations)
    (hshared : ∀ request ∈ document.parameterRequests template item.parameters,
      request.1 ∈ names)
    (hterminal : walked.terminal < state.index.parts.length)
    (hinformed : Informed document template item names shared state) :
    Yields (extractOperations ⟨document, cancelAt⟩ template shared walked operations) state
      (fun _ state' => state.Filled walked.terminal
        (document.offer template item operations) state') excuse := by
  induction operations generalizing state with
  | nil =>
    refine .pure ⟨rfl, rfl, fun _ id method => ?_⟩
    simp [Document.offer]
  | cons entry rest ih =>
    obtain ⟨hfirst, hrest⟩ := List.cons_subset.1 hoperations
    rw [extractOperations_cons]
    obtain ⟨method, operation⟩ := entry
    refine .unlessCancelled (fun hcancelled => ⟨rfl, rfl, fun hend => ?_⟩) fun hactive => ?_
    · rw [hcancelled] at hend
      cases hend
    refine (extractOperation_yields hexcused hpath hfirst hshared hterminal hinformed).bind
      fun _ s hstep hs => ?_
    obtain ⟨rfl, hcoherent⟩ := hinformed hactive
    have hs' : document.CoherentUnlessCancelled names s :=
      coherent_extractOperation hpath hfirst hshared state _ s (fun _ => hcoherent) hstep
    have hrestYields := ih hrest (hs.outline.length_eq.symm ▸ hterminal)
      fun hend => ⟨rfl, hs' hend⟩
    refine ⟨fun {_ state'} hlast => ?_, hrestYields.abort⟩
    have hfilled := hs.trans (hrestYields.answer hlast) fun hend =>
      (grows_extractOperations hpath hrest hlast).not_cancelled hend
    refine ⟨hfilled.outline, hfilled.repeated, fun hend id other => ?_⟩
    rw [hfilled.endpointAt hend, document.offer_cons template item _ rest]

end Extraction

/-! ## Templates of an index -/

namespace PathIndex

/-- An index is made up of the segments of templates: the acceptable ones lead to nodes, and the
first segments of some template lead to each node. Without templates there is the root only. -/
structure Spans (index : PathIndex) (templates : List String) : Prop where
  proper : index.Proper
  found : ∀ template ∈ templates, Acceptable template → (index.find? template).isSome = true
  reached : ∀ id < index.parts.length, (id = root ∧ templates = []) ∨
    ∃ template ∈ templates, ∃ initial, initial <+: templateSegments template ∧
      index.descend root initial = some id

namespace Spans

variable {index index' middle : PathIndex} {templates : List String} {template : String}

/-- The empty index is made up of no templates. -/
theorem empty : (∅ : PathIndex).Spans [] := by
  refine ⟨proper_empty, fun _ hmem => (nomatch hmem), fun id hid => .inl ⟨?_, rfl⟩⟩
  have hone : id < 1 := hid
  exact Nat.lt_one_iff.1 hone

/-- Another template is laid into the index. -/
theorem next (h : index.Spans templates)
    (hlaid : index.Laid middle root (templateSegments template))
    (houtline : middle.SameOutline index')
    (hfound : Acceptable template → (index'.find? template).isSome = true) :
    index'.Spans (templates ++ [template]) where
  proper := houtline.proper hlaid.proper
  found := by
    intro other hother hacceptable
    rcases List.mem_append.1 hother with hother | hother
    · obtain ⟨id, hid⟩ := Option.isSome_iff_exists.1 (h.found other hother hacceptable)
      exact Option.isSome_iff_exists.2
        ⟨id, (hlaid.toExtends.trans houtline.toExtends).descend hid⟩
    · obtain rfl := List.mem_singleton.1 hother
      exact hfound hacceptable
  reached := by
    intro id hid
    have hlast : template ∈ templates ++ [template] := List.mem_append_right _ List.mem_cons_self
    rw [houtline.length_eq] at hid
    rcases hlaid.reached id hid with hold | ⟨initial, hinitial, hdescend⟩
    · rcases h.reached id hold with ⟨rfl, -⟩ | ⟨other, hother, initial, hinitial, hdescend⟩
      · exact .inr ⟨template, hlast, [], List.nil_prefix, rfl⟩
      · exact .inr ⟨other, List.mem_append_left _ hother, initial, hinitial,
          (hlaid.toExtends.trans houtline.toExtends).descend hdescend⟩
    · exact .inr ⟨template, hlast, initial, hinitial, houtline.toExtends.descend hdescend⟩

/-- A list of templates may be repeated. -/
theorem collapse (h : index.Spans (templates ++ templates)) : index.Spans templates where
  proper := h.proper
  found := fun template hmem => h.found template (List.mem_append_left _ hmem)
  reached := by
    intro id hid
    rcases h.reached id hid with ⟨hroot, hnone⟩ | ⟨template, hmem, hreached⟩
    · exact .inl ⟨hroot, (List.append_eq_nil_iff.1 hnone).1⟩
    · exact .inr ⟨template, or_self_iff.1 (List.mem_append.1 hmem), hreached⟩

end Spans

end PathIndex

/-! ## Paths of a document -/

namespace Document

variable {document : Document} {index index' : PathIndex} {template : String} {item : PathItem}
  {done : List (String × PathItem)} {state state' : ExtractionState}

/-- The endpoint that a path provides for a node of an index and a method: its template is
acceptable and leads to the node, and it declares the method. -/
def contribution (document : Document) (index : PathIndex) (id : Nat) (method : HttpMethod)
    (entry : String × PathItem) : Option Endpoint :=
  if Acceptable entry.1 ∧ index.find? entry.1 = some id then
    (entry.2.operation? method).map (document.endpoint entry.1 entry.2 method)
  else none

/-- What a path provides does not change while the index grows. -/
theorem contribution_of_extends (h : index.Extends index') {entry : String × PathItem}
    (hfound : Acceptable entry.1 → (index.find? entry.1).isSome = true) (id : Nat)
    (method : HttpMethod) :
    document.contribution index' id method entry = document.contribution index id method entry := by
  unfold contribution
  by_cases hacceptable : Acceptable entry.1
  · obtain ⟨terminal, hfind⟩ := Option.isSome_iff_exists.1 (hfound hacceptable)
    have hfind' : index'.find? entry.1 = some terminal := h.descend hfind
    rw [hfind, hfind']
  · rw [if_neg fun hboth => hacceptable hboth.1, if_neg fun hboth => hacceptable hboth.1]

/-- What a path provides whose template leads to a node. -/
theorem contribution_of_find (hacceptable : Acceptable template) {terminal : Nat}
    (hfind : index.find? template = some terminal) (id : Nat) (method : HttpMethod) :
    document.contribution index id method (template, item) =
      if id = terminal then document.offer template item item.operations method else none := by
  rw [contribution, offer, PathItem.find?_operations, Option.map_map]
  by_cases hid : id = terminal
  · rw [if_pos ⟨hacceptable, hid ▸ hfind⟩, if_pos hid]
    rfl
  · rw [if_neg fun hboth => hid ?_, if_neg hid]
    exact (Option.some.inj (hfind.symm.trans hboth.2)).symm

/-- The step from one state to another by a path: its template is laid into the index or reported,
and what it provides is put at the nodes that have no endpoint for the method. -/
structure Advances (document : Document) (template : String) (item : PathItem)
    (state state' : ExtractionState) : Prop where
  laid : ∃ middle, state.index.Laid middle PathIndex.root (templateSegments template) ∧
    middle.SameOutline state'.index
  found : Acceptable template → (state'.index.find? template).isSome = true
  repeated : state'.resolver.repeated =
    state.resolver.repeated ++ if Acceptable template then [] else [template]
  endpointAt : state'.resolver.cancelled = false → ∀ id method, state'.index.endpointAt id method =
    (state.index.endpointAt id method).or
      (document.contribution state'.index id method (template, item))

/-- The index after some paths: it is made up of their templates, and each endpoint is the one that
the first of them provides. -/
structure Indexed (document : Document) (done : List (String × PathItem))
    (state : ExtractionState) : Prop where
  spans : state.index.Spans (done.map Prod.fst)
  coherent : document.CoherentUnlessCancelled [] state
  endpointAt : state.resolver.cancelled = false → ∀ id method,
    state.index.endpointAt id method = done.findSome? (document.contribution state.index id method)

/-- The index after one path more. -/
theorem Indexed.next (h : document.Indexed done state)
    (hadvances : document.Advances template item state state')
    (hcoherent : document.CoherentUnlessCancelled [] state') (hgrows : state.Grows state') :
    document.Indexed (done ++ [(template, item)]) state' := by
  obtain ⟨middle, hlaid, houtline⟩ := hadvances.laid
  refine ⟨?_, hcoherent, fun hend id method => ?_⟩
  · rw [List.map_append]
    exact h.spans.next hlaid houtline hadvances.found
  · have hold : ∀ entry ∈ done, document.contribution state'.index id method entry =
        document.contribution state.index id method entry := fun entry hentry =>
      contribution_of_extends (hlaid.toExtends.trans houtline.toExtends)
        (h.spans.found entry.1 (List.mem_map_of_mem hentry)) id method
    have hfirst : done.findSome? (document.contribution state'.index id method) =
        done.findSome? (document.contribution state.index id method) := by
      rw [← List.head?_filterMap, ← List.head?_filterMap, List.filterMap_congr hold]
    rw [hadvances.endpointAt hend, h.endpointAt (hgrows.not_cancelled hend), List.findSome?_append,
      hfirst, List.findSome?_singleton]

/-- Paths that were taken up before provide nothing new. -/
theorem Indexed.collapse (h : document.Indexed (done ++ done) state) :
    document.Indexed done state := by
  refine ⟨?_, h.coherent, fun hend id method => ?_⟩
  · have hspans := h.spans
    rw [List.map_append] at hspans
    exact hspans.collapse
  · rw [h.endpointAt hend, List.findSome?_append, Option.or_self]

end Document

/-! ## Passes over the paths -/

namespace Extraction

variable {document : Document} {cancelAt : Option Nat} {excuse : Abort → Prop} {template : String}
  {item : PathItem} {state : ExtractionState}

/-- A template is laid into a proper index. -/
theorem walkTemplate_yields (hproper : state.index.Proper) :
    Yields (walkTemplate template) state
      (Walked template (templateSegments template) ⟨PathIndex.root, ∅⟩ state) excuse :=
  walkSegments_yields _ hproper state.index.root_lt

/-- A state after the shared parameters of a path were collected and its template was laid into the
index or reported. -/
structure Entered (document : Document) (template : String) (item : PathItem)
    (state : ExtractionState) (shared : ParameterMap) (answer : Option WalkedPath)
    (state' : ExtractionState) : Prop where
  laid : state.index.Laid state'.index PathIndex.root (templateSegments template)
  accepted : ∀ walked, answer = some walked → Acceptable template ∧
    state'.index.find? template = some walked.terminal ∧
    state'.resolver.repeated = state.resolver.repeated ∧
    Informed document template item
      ((document.parameterRequests template item.parameters).map Prod.fst) shared state'
  refused : answer = none → ¬ Acceptable template ∧
    state'.resolver.repeated = state.resolver.repeated ++ [template]

/-- **What becomes of a template.** The collection of the shared parameters leaves the index alone,
and the walk leaves the endpoints alone. -/
theorem entered_of_walk (hpath : (template, item) ∈ document.pathEntries)
    (hproper : state.index.Proper) (hcoherent : document.CoherentUnlessCancelled [] state)
    {shared : ParameterMap} {answer : Option WalkedPath} {s₁ s₂ : ExtractionState}
    (hshared : collectParameters ⟨document, cancelAt⟩ template 0 item.parameters ∅ state =
      .ok shared s₁)
    (hwalk : walkTemplate template s₁ = .ok answer s₂) :
    Entered document template item state shared answer s₂ := by
  have hrequests := (List.append_subset.1 (Document.pathRequests_subset hpath)).1
  have hbuilds : state.Builds s₁ := ((building_builds (.any _) state).collectParameters hrequests
    (fun _ _ => trivial) 0 ∅ state (.refl state)).answer hshared
  have hyields : Yields (walkTemplate template) s₁ (Walked template (templateSegments template)
      ⟨PathIndex.root, ∅⟩ s₁) fun _ => True :=
    walkTemplate_yields (hbuilds.outline.proper hproper)
  have hwalked := hyields.answer hwalk
  refine ⟨.of_sameOutline hbuilds.outline hbuilds.endpointAt hwalked.laid,
    fun walked hwalked' => ?_, fun hnone => ?_⟩
  · obtain ⟨hacceptable, hresolver, hfind⟩ := hwalked.accepted walked hwalked'
    refine ⟨hacceptable, hfind, by rw [hresolver, hbuilds.repeated], fun hend => ?_⟩
    have hend₁ : s₁.resolver.cancelled = false := hresolver ▸ hend
    have hstart := (grows_collectParameters hrequests hshared).not_cancelled hend₁
    obtain ⟨rfl, hcollects⟩ :=
      collectParameters_ok hrequests hshared hend₁ (hcoherent hstart).accounted
    have hcoherent₁ := (hcoherent hstart).collect hcollects
    exact ⟨rfl, coherent_walkSegments _ _ s₁ _ s₂ (fun _ => hcoherent₁) hwalk hend⟩
  · obtain ⟨hrefused, segment, -, hresolver⟩ := hwalked.refused hnone
    refine ⟨hrefused, ?_⟩
    rw [hresolver, ← hbuilds.repeated]
    simp [ResolverState.repeated, Diagnostic.repeated?]

/-- **What becomes of a path**: its template is laid into the index or reported, and the endpoints
of its operations are put at the node that the template leads to. -/
theorem extractPath_yields (hexcused : Excused ⟨document, cancelAt⟩ excuse)
    (hpath : (template, item) ∈ document.pathEntries) (hproper : state.index.Proper)
    (hcoherent : document.CoherentUnlessCancelled [] state) :
    Yields (extractPath ⟨document, cancelAt⟩ template item) state
      (fun _ state' => document.Advances template item state state') excuse := by
  have hrequests := (List.append_subset.1 (Document.pathRequests_subset hpath)).1
  have hcollect := (building_builds hexcused state).collectParameters hrequests
    (fun abort haborts => hexcused.parameters hpath haborts) 0 ∅
  refine (hcollect state (.refl state)).bind fun shared s₁ hshared hs₁ => ?_
  have hwalk : Yields (walkTemplate template) s₁
      (Walked template (templateSegments template) ⟨PathIndex.root, ∅⟩ s₁) excuse :=
    walkTemplate_yields (hs₁.outline.proper hproper)
  refine hwalk.bind fun answer s₂ hwalked _ => ?_
  have hentered := entered_of_walk hpath hproper hcoherent hshared hwalked
  cases answer with
  | none =>
    obtain ⟨hrefused, hrepeated⟩ := hentered.refused rfl
    refine .pure ⟨⟨s₂.index, hentered.laid, rfl⟩, fun h => absurd h hrefused, ?_,
      fun _ id method => ?_⟩
    · rw [hrepeated, if_neg hrefused]
    · rw [hentered.laid.endpointAt, Document.contribution, if_neg fun h => hrefused h.1,
        Option.or_none]
  | some walked =>
    obtain ⟨hacceptable, hfind, hrepeated, hinformed⟩ := hentered.accepted walked rfl
    have hoperations := extractOperations_yields hexcused hpath (List.Subset.refl _)
      (fun request hrequest => List.mem_map_of_mem hrequest)
      (PathIndex.lt_of_descend s₂.index.root_lt hfind) hinformed
    refine hoperations.mono fun _ state' hfilled => ?_
    have hfind' : state'.index.find? template = some walked.terminal :=
      hfilled.outline.toExtends.descend hfind
    refine ⟨⟨s₂.index, hentered.laid, hfilled.outline⟩,
      fun _ => Option.isSome_iff_exists.2 ⟨_, hfind'⟩, ?_, fun hend id method => ?_⟩
    · rw [hfilled.repeated, hrepeated, if_pos hacceptable, List.append_nil]
    · rw [hfilled.endpointAt hend, hentered.laid.endpointAt,
        Document.contribution_of_find hacceptable hfind']

/-- **What becomes of paths**: unless the extraction is cancelled, all of them are taken up one
after the other. -/
theorem extractPaths_yields {done paths : List (String × PathItem)}
    (hexcused : Excused ⟨document, cancelAt⟩ excuse) (hpaths : paths ⊆ document.pathEntries)
    (h : document.Indexed done state) :
    Yields (extractPaths ⟨document, cancelAt⟩ paths) state
      (fun _ state' => state.index.Extends state'.index ∧ ∃ taken,
        document.Indexed (done ++ taken) state' ∧
        state'.resolver.repeated = state.resolver.repeated ++
          (taken.map Prod.fst).filter (fun template => ¬ Acceptable template) ∧
        (state'.resolver.cancelled = false → taken = paths)) excuse := by
  induction paths generalizing done state with
  | nil =>
    exact .pure ⟨.refl _, [], by rwa [List.append_nil], (List.append_nil _).symm, fun _ => rfl⟩
  | cons entry rest ih =>
    obtain ⟨template, item⟩ := entry
    obtain ⟨hfirst, hrest⟩ := List.cons_subset.1 hpaths
    refine .unlessCancelled (fun hcancelled => ?_) fun hactive => ?_
    · refine ⟨.refl _, [], by rwa [List.append_nil], (List.append_nil _).symm, fun hend => ?_⟩
      rw [hcancelled] at hend
      cases hend
    refine (extractPath_yields hexcused hfirst h.spans.proper h.coherent).bind
      fun _ s hstep hadvances => ?_
    have hgrows : state.Grows s := grows_extractPath hfirst hstep
    have hcoherent : document.CoherentUnlessCancelled [] s :=
      coherent_extractPath hfirst state _ s h.coherent hstep
    refine (ih hrest (h.next hadvances hcoherent hgrows)).mono ?_
    rintro _ state' ⟨hextends, taken, hindexed, hrepeated, hall⟩
    obtain ⟨middle, hlaid, houtline⟩ := hadvances.laid
    refine ⟨(hlaid.toExtends.trans houtline.toExtends).trans hextends, (template, item) :: taken,
      ?_, ?_, fun hend => by rw [hall hend]⟩
    · rwa [List.append_assoc] at hindexed
    · rw [hrepeated, hadvances.repeated, List.append_assoc, List.map_cons, List.filter_cons]
      by_cases hacceptable : Acceptable template <;> simp [hacceptable]

/-- The states that passes over all paths of a document lead to, from a new extraction on. -/
inductive Rounds (context : Context) (resolver : ResolverState) : ExtractionState → Prop
  | start : Rounds context resolver { resolver }
  | again {state state' : ExtractionState} (h : Rounds context resolver state)
      (hpass : extractPaths context context.document.pathEntries state = .ok () state') :
      Rounds context resolver state'

/-- In a new extraction no path was taken up. -/
theorem indexed_start {resolver : ResolverState}
    (h : resolver.cancelled = false → resolver.Accounted) : document.Indexed [] { resolver } := by
  refine ⟨.empty, fun hend => ⟨h hend, .empty, fun _ hname => nomatch hname⟩,
    fun _ id method => ?_⟩
  show (∅ : PathIndex).endpointAt id method = none
  cases id with
  | zero => rfl
  | succ id => rw [PathIndex.endpointAt, PathIndex.part?_eq_none (Nat.succ_pos id)]; rfl

/-- **After a pass over all paths all of them are taken up**, whether they were before or not, and
the templates that are not acceptable are reported. -/
theorem indexed_of_pass {before : ExtractionState}
    (h : document.Indexed [] before ∨ document.Indexed document.pathEntries before)
    (hpass : extractPaths ⟨document, cancelAt⟩ document.pathEntries before = .ok () state)
    (hend : state.resolver.cancelled = false) :
    document.Indexed document.pathEntries state ∧
      state.resolver.repeated = before.resolver.repeated ++
        (document.pathEntries.map Prod.fst).filter (fun template => ¬ Acceptable template) := by
  rcases h with hindexed | hindexed
  · obtain ⟨-, taken, htaken, hrepeated, hall⟩ :=
      (extractPaths_yields (.any _) (List.Subset.refl _) hindexed).answer hpass
    obtain rfl := hall hend
    exact ⟨htaken, hrepeated⟩
  · obtain ⟨-, taken, htaken, hrepeated, hall⟩ :=
      (extractPaths_yields (.any _) (List.Subset.refl _) hindexed).answer hpass
    obtain rfl := hall hend
    exact ⟨htaken.collapse, hrepeated⟩

/-- After some rounds, no path or every path is taken up. -/
theorem Rounds.indexed {turns : List Turn} {resolver : ResolverState}
    (hresolver : Session ⟨document, cancelAt⟩ turns resolver)
    (h : Rounds ⟨document, cancelAt⟩ resolver state) (hend : state.resolver.cancelled = false) :
    document.Indexed [] state ∨ document.Indexed document.pathEntries state := by
  induction h with
  | start => exact .inl (indexed_start hresolver.accounted)
  | again _ hpass ih =>
    have hgrows := grows_extractPaths (List.Subset.refl _) hpass
    exact .inr (indexed_of_pass (ih (hgrows.not_cancelled hend)) hpass hend).1

end Extraction

/-- The paths of a document have distinct templates. -/
theorem Document.nodup_templates (document : Document) :
    (document.pathEntries.map Prod.fst).Nodup := by
  unfold pathEntries
  cases document.paths with
  | none => exact List.nodup_nil
  | some paths =>
    have hdistinct : paths.entries.Pairwise fun a b => a.1 ≠ b.1 :=
      paths.sorted.imp fun {a b} hlt (heq : a.1 = b.1) => String.lt_irrefl b.1 (heq ▸ hlt)
    exact List.pairwise_map.2 hdistinct

/-- **The index and the reports after a pass over all paths**, the first or a later one, that was
not cancelled. A template whose parameters have distinct names is not reported; it leads to a node,
which has an endpoint for each method that is declared for it. Any other template is reported once.
Each endpoint is the one that the first acceptable template provides that leads to its node and
declares its method, and the first segments of some template lead to each node.

**Proof sketch.** `Extraction.Rounds.indexed` before the pass, and `Extraction.indexed_of_pass` for
the pass itself. -/
theorem indexed_of_rounds {document : Document} {cancelAt : Option Nat} {turns : List Turn}
    {resolver : ResolverState} {before state : ExtractionState}
    (hresolver : Session ⟨document, cancelAt⟩ turns resolver)
    (hbefore : Extraction.Rounds ⟨document, cancelAt⟩ resolver before)
    (hpass : Extraction.extractPaths ⟨document, cancelAt⟩ document.pathEntries before =
      .ok () state) (hend : state.resolver.cancelled = false) :
    (∀ template item, (template, item) ∈ document.pathEntries →
      (Acceptable template → ∃ id, state.index.find? template = some id ∧
        ∀ method operation, (method, operation) ∈ item.operations →
          (state.index.endpointAt id method).isSome = true) ∧
      (before.resolver.recordedSince state.resolver).countP
          (fun diagnostic => diagnostic.repeated? == some template) =
        if Acceptable template then 0 else 1) ∧
    (∀ id method, state.index.endpointAt id method =
      document.pathEntries.findSome? (document.contribution state.index id method)) ∧
    ∀ id < state.index.parts.length,
      (id = PathIndex.root ∧ document.pathEntries = []) ∨
        ∃ entry ∈ document.pathEntries, ∃ initial, initial <+: templateSegments entry.1 ∧
          state.index.descend PathIndex.root initial = some id := by
  have hgrows : before.Grows state := Extraction.grows_extractPaths (List.Subset.refl _) hpass
  obtain ⟨hindexed, hrepeated⟩ := Extraction.indexed_of_pass
    (hbefore.indexed hresolver (hgrows.not_cancelled hend)) hpass hend
  have hreports : (before.resolver.recordedSince state.resolver).filterMap Diagnostic.repeated? =
      (document.pathEntries.map Prod.fst).filter (fun template => ¬ Acceptable template) := by
    rw [ResolverState.repeated, ← hgrows.resolver.append_recordedSince, List.filterMap_append]
      at hrepeated
    exact List.append_cancel_left hrepeated
  refine ⟨fun template item hpath => ⟨fun hacceptable => ?_, ?_⟩, hindexed.endpointAt hend,
    fun id hid => ?_⟩
  · have hmem := List.mem_map_of_mem (f := Prod.fst) hpath
    obtain ⟨id, hfind⟩ := Option.isSome_iff_exists.1 (hindexed.spans.found _ hmem hacceptable)
    refine ⟨id, hfind, fun method operation hoperation => ?_⟩
    rw [hindexed.endpointAt hend, List.findSome?_isSome_iff]
    refine ⟨(template, item), hpath, ?_⟩
    rw [Document.contribution_of_find hacceptable hfind, if_pos rfl, Document.offer,
      Option.isSome_map, List.find?_isSome]
    exact ⟨(method, operation), hoperation, decide_eq_true rfl⟩
  · rw [← List.count_filterMap, hreports]
    split
    · next hacceptable =>
      exact List.count_eq_zero_of_not_mem fun hmem => by simp [hacceptable] at hmem
    · next hrefused =>
      rw [List.count_filter (by simpa using hrefused)]
      exact List.count_eq_one_of_mem document.nodup_templates (List.mem_map_of_mem hpath)
  · refine (hindexed.spans.reached id hid).imp (fun h => ⟨h.1, List.map_eq_nil_iff.1 h.2⟩) ?_
    rintro ⟨template, hmem, hreached⟩
    obtain ⟨entry, hentry, rfl⟩ := List.mem_map.1 hmem
    exact ⟨entry, hentry, hreached⟩

/-- Two spellings of a path, and a path that names a parameter twice. -/
def spellingPaths : List (String × PathItem) :=
  [("/a", { get := some {} }),
   ("/a/", { get := some { parameters := [.reference "#/components/parameters/p"] }
             post := some {} }),
   ("/x/{i}/{i}", { get := some {} })]

/-- A document with these paths. -/
def spellings : Document :=
  { Document.ofSchemas [] with paths := some (.ofList spellingPaths) }

/-- The spellings lead to one node, which takes a method from each of them; the other template is
reported. -/
theorem indexed_spellings :
    ∃ state, Extraction.extractPaths ⟨spellings, none⟩ spellings.pathEntries {} = .ok () state ∧
      state.resolver.cancelled = false ∧
      (∃ id, state.index.find? "/a" = some id ∧ state.index.find? "/a/" = some id ∧
        state.index.endpointAt id .get =
          some (spellings.endpoint "/a" { get := some {} } .get {}) ∧
        (state.index.endpointAt id .post).isSome = true) ∧
      (ResolverState.recordedSince {} state.resolver).countP
        (fun diagnostic => diagnostic.repeated? == some "/x/{i}/{i}") = 1 := by
  have hcheck : (match Extraction.extractPaths ⟨spellings, none⟩ spellings.pathEntries {} with
      | .ok _ state => !state.resolver.cancelled
      | .error _ _ => false) = true := by decide +kernel
  split at hcheck
  case h_2 => cases hcheck
  case h_1 answer state hpass =>
  have hend : state.resolver.cancelled = false := by simpa using hcheck
  obtain ⟨htemplates, hendpoints, -⟩ := indexed_of_rounds (.start ∅) .start hpass hend
  have hentries : spellings.pathEntries = spellingPaths := rfl
  rw [hentries] at htemplates hendpoints
  obtain ⟨⟨id, hfind, -⟩, -⟩ := (htemplates "/a" _ (.head _)).imp (· (by decide)) fun h => h
  obtain ⟨⟨id', hfind', hmethods⟩, -⟩ :=
    (htemplates "/a/" _ (.tail _ (.head _))).imp (· (by decide)) fun h => h
  have hrepeated := (htemplates "/x/{i}/{i}" _ (.tail _ (.tail _ (.head _)))).2
  have hsame : state.index.find? "/a/" = some id := hfind
  obtain rfl : id' = id := Option.some.inj (hfind'.symm.trans hsame)
  have hpost := hmethods .post {} (List.mem_filterMap.2 ⟨.post, by decide, rfl⟩)
  refine ⟨state, hpass, hend, ⟨id', hfind, hsame, ?_, hpost⟩, ?_⟩
  · rw [hendpoints, spellingPaths, List.findSome?_cons, Document.contribution,
      if_pos ⟨by decide, hfind⟩]
    rfl
  · rw [hrepeated, if_neg (by decide)]

end ApiCatalog
