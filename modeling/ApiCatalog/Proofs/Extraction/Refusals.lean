import ApiCatalog.Proofs.Extraction.Cancellation
import ApiCatalog.Proofs.Extraction.Relations
import ApiCatalog.Proofs.Extraction.Segments
import ApiCatalog.Proofs.PathIndex.Tidy

set_option autoImplicit false

/-!
# Refusals that never occur

The passes say what is to be done where the index refuses a change. None of that is ever done: the
segments of templates ask for the kinds that their nodes have, only parameters are bound, and an
endpoint is put only at a node that has none for its method, which does not change while it is
built. To say so, the passes of an extraction are compared with those that react to refusals in any
way, and they do the same. The same goes for a method that is not one of those that can be declared.

## Main definitions

* `ExtractionState.Settled`: no refusal was reported.

## Main results

* `Extraction.related_passesWith`: whatever else is done, they do the same.
* `ApiCatalog.tidy_of_passes`: the index is tidy and no refusal occurs, however a run ends.
-/

namespace ApiCatalog

/-! ## States without refusals -/

/-- Whether a diagnostic reports a refusal: a segment as both kinds of node, or a method that cannot
be declared. -/
def Diagnostic.isRefusal : Diagnostic → Bool
  | .segmentKindMismatch .. | .unsupportedMethod .. => true
  | _ => false

/-- The index has a property, and no refusal was reported. -/
structure ExtractionState.Settled (P : PathIndex → Prop) (state : ExtractionState) : Prop where
  index : P state.index
  unrefused : ∀ diagnostic ∈ state.resolver.diagnostics, diagnostic.isRefusal = false

/-- A walk has followed segments through a tidy index. -/
structure WalkedPath.Ready (walked : WalkedPath) (segments : List String) (index : PathIndex) :
    Prop where
  tidy : index.Tidy
  follows : walked.Follows index segments

/-- And the node that it has come to has no endpoint for a method. -/
structure WalkedPath.ReadyFor (walked : WalkedPath) (segments : List String) (method : HttpMethod)
    (index : PathIndex) : Prop extends walked.Ready segments index where
  free : index.endpointAt walked.terminal method = none

/-- Two states are the same, and have a property. -/
def ExtractionState.Both (inv : ExtractionState → Prop) (s s' : ExtractionState) : Prop :=
  s' = s ∧ inv s

/-- A binding changes nothing of that. -/
theorem WalkedPath.ReadyFor.bind {walked : WalkedPath} {segments : List String}
    {method : HttpMethod} {index index' : PathIndex} {id : Nat} {schema bound : ModelName}
    (h : walked.ReadyFor segments method index)
    (hbind : index.bind id schema = .ok (bound, index')) :
    walked.ReadyFor segments method index' := by
  obtain ⟨houtline, hendpoints⟩ := PathIndex.sameOutline_bind hbind
  exact ⟨⟨h.tidy.bind hbind, h.follows.mono houtline.toExtends⟩, (hendpoints _ _).trans h.free⟩

namespace Extraction

open ExtractionState

variable {document : Document} {cut : Option Nat} {P : PathIndex → Prop} {α : Type}
  {template : String} {method : HttpMethod} {walked : WalkedPath} {segments : List String}

/-- The basic steps of building an endpoint report no refusal, and keep what bindings keep. -/
theorem respects_settled (cut : Option Nat)
    (hbind : ∀ {index id schema bound index'}, P index →
      index.bind id schema = .ok (bound, index') → P index') :
    Respects cut cut (Both (Settled P)) where
  cancelled := by rintro _ s ⟨rfl, -⟩; rfl
  contains := by rintro _ s ⟨rfl, -⟩ name; rfl
  find? := by rintro _ s ⟨rfl, -⟩ name; rfl
  index := by rintro _ s ⟨rfl, -⟩; rfl
  register := by
    rintro _ s ⟨rfl, hs⟩ model
    exact ⟨rfl, hs.index, hs.unrefused⟩
  record := by
    rintro _ s ⟨rfl, hs⟩ diagnostic hpart
    refine ⟨rfl, hs.index, fun other hother => ?_⟩
    rcases List.mem_append.1 hother with hold | hnew
    · exact hs.unrefused other hold
    · obtain rfl := List.mem_singleton.1 hnew
      cases other <;> first | rfl | cases hpart
  memoise := by
    rintro _ s ⟨rfl, hs⟩ name resolution
    refine ⟨rfl, hs.index, ?_⟩
    rw [withResolver, ResolverState.diagnostics_memoise]
    exact hs.unrefused
  bindName := by
    rintro _ s ⟨rfl, hs⟩ name references
    exact ⟨rfl, hs.index, hs.unrefused⟩
  bindNode := by
    rintro _ s ⟨rfl, hs⟩ id schema bound index hmade
    exact ⟨rfl, hbind hs.index hmade, hs.unrefused⟩

/-- Less may be known of the index. -/
theorem settled_mono {Q : PathIndex → Prop} (h : ∀ index, P index → Q index) :
    ∀ s s', Both (Settled P) s s' → Both (Settled Q) s s' :=
  fun _ _ hs => ⟨hs.1, h _ hs.2.index, hs.2.unrefused⟩

/-- A state with a report that is no refusal. -/
theorem both_record {diagnostic : Diagnostic} (hlive : diagnostic.isRefusal = false) :
    Related (Both (Settled P)) (record diagnostic) (record diagnostic) := by
  rintro _ s ⟨rfl, hs⟩
  refine ⟨rfl, rfl, hs.index, fun other hother => ?_⟩
  rcases List.mem_append.1 hother with hold | hnew
  · exact hs.unrefused other hold
  · obtain rfl := List.mem_singleton.1 hnew
    exact hlive

/-- The wish to stop leaves the state as it is. -/
theorem related_isCancelled : Related (Both (Settled P)) isCancelled isCancelled := by
  rintro _ s ⟨rfl, hs⟩
  exact ⟨rfl, rfl, hs⟩

/-- **A change that is never refused** is made in the same way, whatever is done at refusals. -/
theorem relates_changeIndexWith (reactions : Reactions) {Q : α → PathIndex → Prop}
    {change : PathIndex → Except PathIndexError (α × PathIndex)}
    {left : ExtractionState → ExtractionState → Prop}
    (hmade : ∀ index, P index → ∃ value index', change index = .ok (value, index') ∧
      Q value index') :
    Relates (Both (Settled P)) (changeIndex change) (changeIndexWith reactions change)
      (fun answer s s' => ∃ value, answer = .ok value ∧ Both (Settled (Q value)) s s') left := by
  rintro _ s ⟨rfl, hs⟩
  obtain ⟨value, index, hchange, hvalue⟩ := hmade s.index hs.index
  rw [changeIndex_of_ok hchange, changeIndexWith_of_ok reactions hchange]
  exact ⟨rfl, value, rfl, rfl, hvalue, hs.unrefused⟩

/-- Steps that do the same from a state leave it with the property. -/
theorem eq_of_both {step step' : Extraction α} {inv : ExtractionState → Prop}
    {state : ExtractionState} (h : Related (Both inv) step step') (hstate : inv state) :
    step' state = step state ∧ inv (stateAfter step state) := by
  have hsteps := h state state ⟨rfl, hstate⟩
  unfold stateAfter
  cases hrun : step state <;> cases hrun' : step' state <;> rw [hrun, hrun'] at hsteps
  · obtain ⟨rfl, rfl, hleft⟩ := hsteps
    exact ⟨rfl, hleft⟩
  · exact hsteps.elim
  · exact hsteps.elim
  · obtain ⟨rfl, rfl, hleft⟩ := hsteps
    exact ⟨rfl, hleft⟩

variable (reactions : Reactions)

/-- A walk is the same, and comes to a node for which it is ready. -/
theorem relates_walkSegmentsWith {done : List String} :
    Relates (Both (Settled (walked.Ready done))) (walkSegments template segments walked)
      (walkSegmentsWith reactions template segments walked)
      (fun answer => Both (Settled fun index => index.Tidy ∧
        ∀ last, answer = some last → last.Ready (done ++ segments) index))
      (Both (Settled PathIndex.Tidy)) := by
  induction segments generalizing done walked with
  | nil =>
    refine .pure ?_
    rintro _ s ⟨rfl, hs⟩
    refine ⟨rfl, ⟨hs.index.tidy, ?_⟩, hs.unrefused⟩
    rintro _ ⟨⟩
    rw [List.append_nil]
    exact hs.index
  | cons segment rest ih =>
    have hnext : ∀ {next : WalkedPath},
        Relates (Both (Settled (next.Ready (done ++ [segment])))) (walkSegments template rest next)
          (walkSegmentsWith reactions template rest next)
          (fun answer => Both (Settled fun index => index.Tidy ∧
            ∀ last, answer = some last → last.Ready (done ++ segment :: rest) index))
          (Both (Settled PathIndex.Tidy)) := by
      intro next
      rw [List.append_cons done segment rest]
      exact ih
    -- the segment is laid into the index as its kind asks for
    have hlaid : ∀ next : Nat → WalkedPath, (∀ {index id}, walked.Follows index done →
          index.child? walked.terminal segment = some id →
          (next id).Follows index (done ++ [segment])) →
        ∀ index, walked.Ready done index → ∃ id index',
          index.getOrAdd walked.terminal segment (.ofSegment segment) = .ok (id, index') ∧
            (next id).Ready (done ++ [segment]) index' := by
      intro next hfollows index hready
      obtain ⟨id, index', hadd, hlaid, hchild⟩ := PathIndex.getOrAdd_of_proper hready.tidy.proper
        (PathIndex.lt_of_descend index.root_lt hready.follows.terminal) segment
      exact ⟨id, index', hadd, hready.tidy.getOrAdd hadd,
        hfollows (hready.follows.mono hlaid.toExtends) hchild⟩
    rw [walkSegments, walkSegmentsWith]
    refine .ite (fun hparameter => ?_) fun hconstant => ?_
    · rw [SegmentKind.ofSegment, if_pos hparameter] at hlaid
      refine .ite (fun _ => ?_) fun hnew => ?_
      · refine ((both_record rfl).mono (settled_mono fun _ h => h.tidy) (fun _ _ _ h => h)
          fun _ _ h => h).bind fun _ => .pure ?_
        rintro _ s ⟨rfl, hs⟩
        refine ⟨rfl, ⟨hs.index, fun _ hend => ?_⟩, hs.unrefused⟩
        exact absurd hend.symm (Option.some_ne_none _)
      · refine (relates_changeIndexWith reactions (hlaid
          (fun id => ⟨id, walked.parameters.insert (parameterName segment) id⟩)
          fun hfollows hchild => hfollows.parameter hchild hparameter ?_)).bind fun answer => ?_
        · rw [← hfollows.keys]
          exact fun hknown => hnew (OrderedMap.contains_iff.2 hknown)
        · rintro s s' ⟨id, rfl, hs⟩
          exact hnext s s' hs
    · rw [SegmentKind.ofSegment, if_neg hconstant] at hlaid
      rw [Bool.not_eq_true] at hconstant
      refine (relates_changeIndexWith reactions (hlaid (fun id => ⟨id, walked.parameters⟩)
        fun hfollows hchild => hfollows.constant hchild hconstant)).bind fun answer => ?_
      rintro s s' ⟨id, rfl, hs⟩
      exact hnext s s' hs

/-! ## Endpoints without refusals -/

/-- A parameter is bound in the same way, as the nodes that a walk knows by name are parameters. -/
theorem related_bindParameterWith (parameter : EndpointParameter) :
    Related (Both (Settled (walked.ReadyFor segments method)))
      (bindParameter template method walked parameter)
      (bindParameterWith reactions template method walked parameter) := by
  unfold bindParameter bindParameterWith
  cases hfind : walked.parameters.find? parameter.name with
  | none => exact both_record rfl
  | some id =>
    have hmade : ∀ index, walked.ReadyFor segments method index → ∃ bound index',
        index.bind id parameter.schema = .ok (bound, index') ∧
          walked.ReadyFor segments method index' := by
      intro index hready
      obtain ⟨part, hpart, hkind⟩ := hready.follows.isParameter hready.tidy.proper hfind
      obtain ⟨bound, index', hbind⟩ := PathIndex.exists_bind hpart hkind parameter.schema
      exact ⟨bound, index', hbind, hready.bind hbind⟩
    refine (relates_changeIndexWith reactions hmade).bind fun answer => ?_
    rintro s s' ⟨value, rfl, hs⟩
    exact ⟨rfl, hs⟩

/-- Parameters are bound in the same way. -/
theorem related_bindParametersWith (parameters : List EndpointParameter) :
    Related (Both (Settled (walked.ReadyFor segments method)))
      (bindParameters template method walked parameters)
      (bindParametersWith reactions template method walked parameters) := by
  induction parameters with
  | nil => exact .pure fun _ _ hs => hs
  | cons parameter rest ih =>
    rw [bindParameters, bindParametersWith]
    exact .ite (fun _ => (related_bindParameterWith reactions parameter).bind fun _ => ih)
      fun _ => ih

/-- **An endpoint is built in the same way**, and its node remains free. -/
theorem relates_buildEndpointWith {operation : Operation}
    (hrequests : document.operationRequests template method operation ⊆ document.requests)
    (shared : ParameterMap) :
    Relates (Both (Settled (walked.ReadyFor segments method)))
      (buildEndpoint ⟨document, cut⟩ template method operation shared walked)
      (buildEndpointWith ⟨document, cut⟩ reactions template method operation shared walked)
      (fun endpoint s s' => endpoint.method = method ∧
        Both (Settled (walked.ReadyFor segments method)) s s')
      (Both (Settled (walked.ReadyFor segments method))) := by
  have hbuilding : Building document cut cut (fun _ => True) fun _ step step' =>
      Related (Both (Settled (walked.ReadyFor segments method))) step step' :=
    (respects_settled cut WalkedPath.ReadyFor.bind).building
  rw [Document.operationRequests, List.append_subset, List.append_subset] at hrequests
  obtain ⟨hparameters, hbodies, hresponses⟩ := hrequests
  refine Relates.bind (hbuilding.collectParameters hparameters (fun _ _ => trivial) _ _)
    fun own => ?_
  refine (related_bindParametersWith reactions _).bind fun _ => ?_
  refine Relates.bind (hbuilding.collectRequestBodies hbodies fun _ _ => trivial) fun bodies => ?_
  refine Relates.bind (hbuilding.collectResponses hresponses (fun _ _ => trivial) _)
    fun responses => ?_
  exact .pure fun _ _ hs => ⟨rfl, hs⟩

/-- **An operation becomes an endpoint in the same way**: its endpoint is inserted only if its node
has none for the method, and building it does not change that. -/
theorem related_extractOperationWith {operation : Operation}
    (hrequests : document.operationRequests template method operation ⊆ document.requests)
    (shared : ParameterMap) :
    Related (Both (Settled (walked.Ready segments)))
      (extractOperation ⟨document, cut⟩ template shared walked method operation)
      (extractOperationWith ⟨document, cut⟩ reactions template shared walked method operation) := by
  rintro _ s ⟨rfl, hs⟩
  have hasked : hasEndpoint walked.terminal method s =
      .ok (s.index.endpointAt walked.terminal method).isSome s := rfl
  unfold extractOperation extractOperationWith
  rw [bind_of_ok hasked, bind_of_ok hasked]
  cases hfree : s.index.endpointAt walked.terminal method with
  | some endpoint => exact both_record rfl s s ⟨rfl, hs⟩
  | none =>
    have hready : Settled (walked.ReadyFor segments method) s := ⟨⟨hs.index, hfree⟩, hs.unrefused⟩
    have hinserts : ∀ endpoint : Endpoint, endpoint.method = method →
        ∀ index, walked.ReadyFor segments method index → ∃ answer index',
          (index.insertEndpoint walked.terminal endpoint).map (((), ·)) = .ok (answer, index') ∧
            walked.Ready segments index' := by
      rintro endpoint rfl index hindex
      obtain ⟨index', hinsert, houtline, -⟩ := PathIndex.insertEndpoint_of_free
        (PathIndex.lt_of_descend index.root_lt hindex.follows.terminal) hindex.free
      refine ⟨(), index', by rw [hinsert]; rfl, hindex.tidy.insertEndpoint hinsert, ?_⟩
      exact hindex.follows.mono houtline.toExtends
    refine ((relates_buildEndpointWith reactions hrequests shared).mono (fun _ _ h => h)
      (fun _ _ _ h => h) (settled_mono fun _ h => h.toReady)).bind (fun endpoint => ?_) s s
        ⟨rfl, hready⟩
    rintro s s' ⟨hmethod, hs⟩
    refine (relates_changeIndexWith reactions (hinserts endpoint hmethod)).bind (fun answer => ?_)
      s s' hs
    rintro s s' ⟨value, rfl, hs⟩
    exact ⟨rfl, hs⟩

/-! ## Passes without refusals -/

/-- Operations become endpoints in the same way, as each of them is declared for a method. -/
theorem related_extractOperationsWith {operations : List (HttpMethod × Operation)}
    (hrequests : ∀ entry ∈ operations,
      document.operationRequests template entry.1 entry.2 ⊆ document.requests)
    (shared : ParameterMap) :
    Related (Both (Settled (walked.Ready segments)))
      (extractOperations ⟨document, cut⟩ template shared walked operations)
      (extractOperationsWith ⟨document, cut⟩ reactions template shared walked
        (operations.map fun entry => (entry.1.name, entry.2))) := by
  induction operations with
  | nil => exact .pure fun _ _ hs => hs
  | cons entry rest ih =>
    obtain ⟨hfirst, hrest⟩ := List.forall_mem_cons.1 hrequests
    rw [extractOperations_cons, List.map_cons, extractOperationsWith, extractMethodWith,
      HttpMethod.ofToken_name]
    refine related_isCancelled.bind fun _ => ?_
    refine .ite (fun _ => .pure fun _ _ hs => hs) fun _ => ?_
    exact (related_extractOperationWith reactions hfirst shared).bind fun _ => ih hrest

/-- A template is extracted in the same way. -/
theorem related_extractPathWith {item : PathItem}
    (hrequests : document.pathRequests template item ⊆ document.requests) :
    Related (Both (Settled PathIndex.Tidy)) (extractPath ⟨document, cut⟩ template item)
      (extractPathWith ⟨document, cut⟩ reactions template item) := by
  have hoperations : ∀ entry ∈ item.operations,
      document.operationRequests template entry.1 entry.2 ⊆ document.requests :=
    fun _ hentry => List.Subset.trans (Document.operationRequests_subset hentry) hrequests
  have hbuilding : Building document cut cut (fun _ => True) fun _ step step' =>
      Related (Both (Settled PathIndex.Tidy)) step step' :=
    (respects_settled cut fun htidy hbind => htidy.bind hbind).building
  rw [Document.pathRequests, List.append_subset] at hrequests
  refine Relates.bind (hbuilding.collectParameters hrequests.1 (fun _ _ => trivial) _ _)
    fun shared => ?_
  have hstart : ∀ index : PathIndex, index.Tidy →
      (⟨PathIndex.root, ∅⟩ : WalkedPath).Ready [] index := fun index htidy => ⟨htidy, .start index⟩
  refine ((relates_walkSegmentsWith reactions).mono (settled_mono hstart) (fun _ _ _ h => h)
    fun _ _ h => h).bind fun answer => ?_
  cases answer with
  | none => exact .pure (settled_mono fun _ h => h.1)
  | some walked =>
    exact (related_extractOperationsWith reactions hoperations shared).mono
      (settled_mono fun _ h => h.2 walked rfl) (fun _ => settled_mono fun _ h => h.tidy)
      (settled_mono fun _ h => h.tidy)

/-- **The passes over paths do the same, whatever is done at refusals.**

**Proof sketch.** Induction on the paths: each of them finds the index tidy and leaves it tidy, and
a tidy index refuses nothing that the extraction of a path asks for. -/
theorem related_extractPaths {paths : List (String × PathItem)}
    (hpaths : paths ⊆ document.pathEntries) :
    Related (Both (Settled PathIndex.Tidy)) (extractPaths ⟨document, cut⟩ paths)
      (extractPathsWith ⟨document, cut⟩ reactions paths) := by
  induction paths with
  | nil => exact .pure fun _ _ hs => hs
  | cons entry rest ih =>
    obtain ⟨hfirst, hrest⟩ := List.cons_subset.1 hpaths
    rw [extractPaths, extractPathsWith]
    refine related_isCancelled.bind fun _ => ?_
    refine .ite (fun _ => .pure fun _ _ hs => hs) fun _ => ?_
    exact (related_extractPathWith reactions (Document.pathRequests_subset hfirst)).bind
      fun _ => ih hrest

/-- All passes do the same, whatever is done at refusals. -/
theorem related_passesWith (options : Options) :
    Related (Both (Settled PathIndex.Tidy)) (passes document options)
      (passesWith reactions document options) := by
  refine (related_extractPaths reactions (List.Subset.refl _)).bind fun _ => ?_
  refine .ite (fun _ => ?_) fun _ => .pure fun _ _ hs => hs
  exact (respects_settled options.cancelAt fun htidy hbind =>
    htidy.bind hbind).extractComponents _

end Extraction

/-- Whatever is done at refusals, the run of an extraction is the same, and ends with a tidy index and
without a report of a refusal. -/
theorem settled_passes (document : Document) (options : Options)
    (reactions : Extraction.Reactions) :
    Extraction.passesWith reactions document options options.initialState =
        passes document options options.initialState ∧
      (Extraction.stateAfter (passes document options) options.initialState).Settled
        PathIndex.Tidy :=
  Extraction.eq_of_both (Extraction.related_passesWith reactions options)
    ⟨PathIndex.tidy_empty, nofun⟩

/-- The index of an extraction with a result is tidy. -/
theorem tidy_of_extract {document : Document} {options : Options} {state : ExtractionState}
    (h : extract document options = .ok state) : state.index.Tidy := by
  have hlast := (settled_passes document options .none).2.index
  rwa [Extraction.stateAfter, passes_of_extract h] at hlast

/-- **The index of an extraction is tidy, and its refusals never occur**, however a run ends and
whether it is cancelled or not: a node below the root is a parameter exactly if its segment is
written in braces, a map of endpoints is not empty, and neither a segment of both kinds nor a method
that cannot be declared is reported. At the refusals anything else might be done, such as to end
the run, and the run would be the same. -/
theorem tidy_of_passes (document : Document) (options : Options) :
    let run := passes document options
    let last := Extraction.stateAfter run options.initialState
    (∀ id part, id ≠ PathIndex.root → last.index.part? id = some part →
        (part.kind.segmentKind = .parameter ↔ isParameterSegment part.segment = true)) ∧
      (∀ part ∈ last.index.parts, part.endpoints ≠ some ∅) ∧
      (∀ template segment kind,
        .segmentKindMismatch template segment kind ∉ last.resolver.diagnostics) ∧
      (∀ template method, .unsupportedMethod template method ∉ last.resolver.diagnostics) ∧
      ∀ reactions, Extraction.passesWith reactions document options options.initialState =
        run options.initialState := by
  intro run last
  have hlast : last.Settled PathIndex.Tidy := (settled_passes document options .none).2
  refine ⟨fun id part _ hpart => hlast.index.isParameter_iff (List.mem_of_getElem? hpart),
    fun part hpart => (hlast.index.parts part hpart).endpoints, ?_, ?_,
    fun reactions => (settled_passes document options reactions).1⟩
  · exact fun template segment kind hmem => nomatch hlast.unrefused _ hmem
  · exact fun template method hmem => nomatch hlast.unrefused _ hmem

end ApiCatalog
