import ApiCatalog.Proofs.Extraction.References
import ApiCatalog.Proofs.PathIndex.Shape

set_option autoImplicit false

/-!
# Outcomes of steps

What a step answers in a state, and how it may end the extraction there. Building an endpoint leaves
the shape of the index alone, and ends the extraction only where a reference of the operation cannot
be looked up, or a schema that it asks for cannot be resolved.

## Main definitions

* `Extraction.Yields`: a step answers in one way, or ends the extraction in another.
* `Extraction.Guarded`: a step keeps a property of the state, or ends the extraction.
* `Extraction.Excused`: what the extraction of a document may be ended by.
* `ExtractionState.Builds`: the shape of the index and the templates reported are as they were.

## Main results

* `Extraction.Yields.bind`: one step after another.
* `Extraction.building_builds`: what building an endpoint leaves alone.
-/

namespace ApiCatalog

namespace Extraction

variable {α β : Type} {state state' : ExtractionState}

/-! ## Outcomes -/

/-- A step answers as expected from a state, or ends the extraction with an excuse. -/
structure Yields (step : Extraction α) (state : ExtractionState)
    (post : α → ExtractionState → Prop) (excuse : Abort → Prop) : Prop where
  answer : ∀ {a state'}, step state = .ok a state' → post a state'
  abort : ∀ {abort state'}, step state = .error abort state' → excuse abort

namespace Yields

variable {post middle : α → ExtractionState → Prop} {last : β → ExtractionState → Prop}
  {excuse : Abort → Prop} {x : Extraction α} {f : α → Extraction β}

/-- Less may be expected. -/
theorem mono (h : Yields x state middle excuse) (hpost : ∀ a s, middle a s → post a s) :
    Yields x state post excuse :=
  ⟨fun hstep => hpost _ _ (h.answer hstep), h.abort⟩

/-- An answer. -/
theorem pure {a : α} (h : post a state) : Yields (pure a) state post excuse where
  answer := by
    intro a' state' hstep
    cases hstep
    exact h
  abort := fun hstep => nomatch hstep

/-- **One step after another**, which begins in what the first one leaves. -/
theorem bind (hx : Yields x state middle excuse)
    (hf : ∀ a s, x state = .ok a s → middle a s → Yields (f a) s last excuse) :
    Yields (x >>= f) state last excuse where
  answer := by
    intro b state' hstep
    obtain ⟨a, s, hfirst, hrest⟩ := bind_eq_ok_iff.1 hstep
    exact (hf a s hfirst (hx.answer hfirst)).answer hrest
  abort := by
    intro abort state' hstep
    have hstep : EStateM.bind x f state = .error abort state' := hstep
    unfold EStateM.bind at hstep
    cases hfirst : x state with
    | ok a s =>
      rw [hfirst] at hstep
      exact (hf a s hfirst (hx.answer hfirst)).abort hstep
    | error abort' s =>
      rw [hfirst] at hstep
      cases hstep
      exact hx.abort hfirst

/-- A step that depends on a condition. -/
theorem ite {y : Extraction α} {condition : Prop} [Decidable condition]
    (hx : condition → Yields x state post excuse) (hy : ¬ condition → Yields y state post excuse) :
    Yields (if condition then x else y) state post excuse := by
  split
  · next h => exact hx h
  · next h => exact hy h

/-- The wish to stop, as an answer. -/
theorem isCancelled {post : Bool → ExtractionState → Prop}
    (h : post state.resolver.cancelled state) : Yields isCancelled state post excuse where
  answer := by
    intro a state' hstep
    cases hstep
    exact h
  abort := fun hstep => nomatch hstep

/-- A step that is taken unless the extraction was cancelled. -/
theorem unlessCancelled {a : α} (hstop : state.resolver.cancelled = true → post a state)
    (hstep : state.resolver.cancelled = false → Yields x state post excuse) :
    Yields (do if ← Extraction.isCancelled then return a else x) state post excuse := by
  have hasked : Yields Extraction.isCancelled state
      (fun cancelled s => cancelled = state.resolver.cancelled ∧ s = state) excuse :=
    isCancelled ⟨rfl, rfl⟩
  refine hasked.bind ?_
  rintro cancelled s - ⟨rfl, rfl⟩
  refine ite (fun hcancelled => pure (hstop hcancelled)) fun hcancelled => ?_
  exact hstep (by simpa using hcancelled)

/-- A diagnostic is added. -/
theorem record {diagnostic : Diagnostic} {post : Unit → ExtractionState → Prop}
    (h : post () { state with resolver := state.resolver.record diagnostic }) :
    Yields (record diagnostic) state post excuse where
  answer := by
    intro a state' hstep
    cases hstep
    exact h
  abort := fun hstep => nomatch hstep

/-- A value that may end the extraction. -/
theorem ofExcept {result : Except Abort α} (hvalue : ∀ a, result = .ok a → post a state)
    (habort : ∀ abort, result = .error abort → excuse abort) :
    Yields (ofExcept result) state post excuse := by
  cases result with
  | ok a => exact pure (hvalue a rfl)
  | error abort =>
    refine ⟨fun hstep => (nomatch hstep), fun hstep => ?_⟩
    cases hstep
    exact habort abort rfl

/-- A step of resolution, beside which the rest of the state stays. -/
theorem ofResolver {step : Resolver α}
    (hanswer : ∀ a resolver, step state.resolver = .ok a resolver → post a { state with resolver })
    (habort : ∀ abort resolver, step state.resolver = .error abort resolver → excuse abort) :
    Yields (ofResolver step) state post excuse where
  answer := by
    intro a state' hstep
    obtain ⟨resolver, hresolver, rfl⟩ := ofResolver_ok hstep
    exact hanswer a resolver hresolver
  abort := by
    intro abort state' hstep
    unfold Extraction.ofResolver at hstep
    split at hstep
    · cases hstep
    · next hresolver =>
      cases hstep
      exact habort _ _ hresolver

/-- A change of the index is made or refused. -/
theorem changeIndex {change : PathIndex → Except PathIndexError (α × PathIndex)}
    {post : Except PathIndexError α → ExtractionState → Prop}
    (hrefused : ∀ error, change state.index = .error error → post (.error error) state)
    (hmade : ∀ value index, change state.index = .ok (value, index) →
      post (.ok value) { state with index }) :
    Yields (changeIndex change) state post excuse where
  answer := by
    intro a state' hstep
    rw [changeIndex_apply] at hstep
    cases hchange : change state.index with
    | error error =>
      rw [hchange] at hstep
      cases hstep
      exact hrefused error hchange
    | ok result =>
      rw [hchange] at hstep
      cases hstep
      exact hmade _ _ hchange
  abort := by
    intro abort state' hstep
    rw [changeIndex_apply] at hstep
    cases hchange : change state.index with
    | error error =>
      rw [hchange] at hstep
      cases hstep
    | ok result =>
      rw [hchange] at hstep
      cases hstep

end Yields

/-! ## Properties that steps keep -/

/-- A step that answers keeps a property of the state, and one that does not has an excuse. -/
def Guarded (inv : ExtractionState → Prop) (excuse : Abort → Prop) (step : Extraction α) : Prop :=
  ∀ state, inv state → Yields step state (fun _ state' => inv state') excuse

/-- What keeps a property makes up buildings of endpoints that do. -/
theorem building_guarded {document : Document} {cancelAt : Option Nat}
    {inv : ExtractionState → Prop} {excuse : Abort → Prop}
    (hrecord : ∀ {state diagnostic}, Diagnostic.isOfPart diagnostic = true → inv state →
      inv { state with resolver := state.resolver.record diagnostic })
    (hbind : ∀ {state : ExtractionState} {id schema bound index},
      state.index.bind id schema = .ok (bound, index) → inv state → inv { state with index })
    (hbound : ∀ {name node}, (name, node) ∈ document.requests →
      Guarded inv excuse (resolveBound ⟨document, cancelAt⟩ node name)) :
    Building document cancelAt cancelAt excuse fun _ step _ => Guarded inv excuse step where
  pure _ _ hinv := .pure hinv
  bind hx hf state hinv := (hx state hinv).bind fun a s _ hs => hf a s hs
  isCancelled _ hinv := .isCancelled hinv
  abort hexcuse _ _ := .ofExcept (fun _ h => nomatch h) fun abort h => by
    cases h
    exact hexcuse
  report hpart _ hinv := .record (hrecord hpart hinv)
  bindNode _ _ _ hinv := .changeIndex (fun _ _ => hinv) fun _ _ hchange => hbind hchange hinv
  bound := hbound

end Extraction

/-! ## What building an endpoint leaves alone -/

/-- The templates that were reported for parameters that repeat, in order. -/
def ResolverState.repeated (state : ResolverState) : List String :=
  state.diagnostics.filterMap Diagnostic.repeated?

/-- A resolution reports no templates.

**Proof sketch.** Induction on the run: the diagnostics that are recorded are about schemas. -/
theorem Runs.repeated_eq {context : Context} {kind : StageKind} {active : List ModelName}
    {stage : Stage kind} {state state' : ResolverState} {answer : kind.Answer}
    (h : Runs context active stage state answer state') : state'.repeated = state.repeated := by
  induction h with
  | cancelled | finished | busy | allMembers | membersLeft | allProperties | noObject | knownObject
  | noArray | knownArray => rfl
  | refused | missing | untyped | noItems | anyItems =>
    simp [ResolverState.repeated, Diagnostic.repeated?]
  | inline _ _ ih | abandoned _ _ _ ih | lostObject _ _ _ _ ih | lostArray _ _ _ _ _ ih
  | composed _ _ _ ih | object _ _ _ _ ih | array _ _ _ _ _ ih => exact ih
  | entered _ _ _ _ _ _ ih =>
    rw [ResolverState.repeated, ResolverState.diagnostics_memoise]
    exact ih
  | typed _ _ _ _ ihObject ihArray =>
    refine ihArray.trans (ihObject.trans ?_)
    rw [ResolverState.repeated, ResolverState.diagnostics_registerAll]
    rfl
  | nextMember _ _ _ ihFirst ihRest | nextProperty _ _ ihFirst ihRest =>
    exact ihRest.trans ihFirst

/-- The outline and the endpoints of the index, and the templates that were reported, are those of
another state. -/
structure ExtractionState.Builds (origin state : ExtractionState) : Prop where
  outline : origin.index.SameOutline state.index
  endpointAt : ∀ id method, state.index.endpointAt id method = origin.index.endpointAt id method
  repeated : state.resolver.repeated = origin.resolver.repeated

/-- A state has its own outline, endpoints and reports. -/
theorem ExtractionState.Builds.refl (state : ExtractionState) : state.Builds state :=
  ⟨rfl, fun _ _ => rfl, rfl⟩

namespace Extraction

/-- What the extraction of a document may be ended by: whatever ends the resolution of a schema that
the document asks for, or a look-up for one of its paths. -/
structure Excused (context : Context) (excuse : Abort → Prop) : Prop where
  resolve : ∀ {name node state abort state'}, (name, node) ∈ context.document.requests →
    ApiCatalog.resolve context node name state = .error abort state' → excuse abort
  parameters : ∀ {template item abort}, (template, item) ∈ context.document.pathEntries →
    context.document.ParametersAbort item.parameters abort → excuse abort
  operation : ∀ {template item method operation abort},
    (template, item) ∈ context.document.pathEntries → (method, operation) ∈ item.operations →
    context.document.OperationAborts operation abort → excuse abort

/-- Nothing needs to be known of how the extraction is ended. -/
theorem Excused.any (context : Context) : Excused context fun _ => True :=
  ⟨fun _ _ => trivial, fun _ _ => trivial, fun _ _ _ => trivial⟩

/-- The resolution of a schema of an endpoint leaves the index and the reports alone. -/
theorem guarded_resolveBound {context : Context} {excuse : Abort → Prop}
    (hexcused : Excused context excuse) {name : ModelName} {node : Node}
    (hrequest : (name, node) ∈ context.document.requests) (origin : ExtractionState) :
    Guarded origin.Builds excuse (resolveBound context node name) := by
  intro state hbuilds
  refine ⟨fun hstep => ?_, fun {abort state'} hstep => ?_⟩
  · obtain ⟨resolution, resolver, hrun, rfl⟩ := resolveBound_ok hstep
    exact ⟨hbuilds.outline, hbuilds.endpointAt, hrun.repeated_eq.trans hbuilds.repeated⟩
  · have hresolve : Yields (ofResolver (resolve context node name)) state (fun _ _ => True)
        excuse :=
      .ofResolver (fun _ _ _ => trivial) fun _ _ hresolve => hexcused.resolve hrequest hresolve
    have hbound : Yields (resolveBound context node name) state (fun _ _ => True) excuse := by
      refine hresolve.bind fun resolution s _ _ => .ite (fun _ => ?_) fun _ => .pure trivial
      exact ⟨fun _ => trivial, fun h => nomatch h⟩
    exact hbound.abort hstep

/-- **What building an endpoint leaves alone**: the outline and the endpoints of the index, and the
templates that were reported. -/
theorem building_builds {document : Document} {cancelAt : Option Nat} {excuse : Abort → Prop}
    (hexcused : Excused ⟨document, cancelAt⟩ excuse) (origin : ExtractionState) :
    Building document cancelAt cancelAt excuse fun _ step _ =>
      Guarded origin.Builds excuse step := by
  refine building_guarded ?_ ?_ fun hrequest => guarded_resolveBound hexcused hrequest origin
  · intro state diagnostic hpart hbuilds
    refine ⟨hbuilds.outline, hbuilds.endpointAt, ?_⟩
    simp only [ResolverState.repeated, ResolverState.diagnostics_record, List.filterMap_append,
      List.filterMap_cons, Diagnostic.repeated?_eq_none hpart, List.filterMap_nil, List.append_nil]
    exact hbuilds.repeated
  · intro state id schema bound index hchange hbuilds
    obtain ⟨houtline, hendpoints⟩ := PathIndex.sameOutline_bind hchange
    exact ⟨houtline.trans hbuilds.outline, fun i method =>
      (hendpoints i method).trans (hbuilds.endpointAt i method), hbuilds.repeated⟩

end Extraction

end ApiCatalog
