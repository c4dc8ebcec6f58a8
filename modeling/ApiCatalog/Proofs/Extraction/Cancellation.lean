import ApiCatalog.Proofs.Extraction.Growth
import ApiCatalog.Proofs.Resolution.Answers
import ApiCatalog.Proofs.Resolution.Cancellation

set_option autoImplicit false

/-!
# Extractions that are cut short

The comparison of a complete resolution with one that is cut short, for the passes of an extraction.
After the cancellation, the passes may still walk through parts of the document, and they may even
be ended by what they meet there; they register no model any more.

## Main definitions

* `Extraction.stateAfter`: the state that a step leaves, whether it answers or not.
* `Extraction.CutShort`: a step does the same as another one, until it is cancelled.

## Main results

* `Extraction.congruence_cutShort`: the pass over paths is cut short.
* `Extraction.cutShort_extractComponents`: so is the pass over components.
-/

namespace ApiCatalog

namespace Extraction

variable {α β : Type}

/-! ## What steps leave -/

/-- The state that a step leaves, whether it answers or ends the extraction. -/
def stateAfter (step : Extraction α) (state : ExtractionState) : ExtractionState :=
  match step state with
  | .ok _ state' => state'
  | .error _ state' => state'

/-- The state that is left by a step that answers. -/
theorem stateAfter_of_ok {step : Extraction α} {state state' : ExtractionState} {a : α}
    (h : step state = .ok a state') : stateAfter step state = state' := by
  rw [stateAfter, h]

/-- The state that is left by a step that ends the extraction. -/
theorem stateAfter_of_error {step : Extraction α} {state state' : ExtractionState} {abort : Abort}
    (h : step state = .error abort state') : stateAfter step state = state' := by
  rw [stateAfter, h]

/-- A step that answers is followed by the next one. -/
theorem bind_of_ok {x : Extraction α} {f : α → Extraction β} {state state' : ExtractionState}
    {a : α} (h : x state = .ok a state') : (x >>= f) state = f a state' := by
  show EStateM.bind x f state = _
  rw [EStateM.bind, h]

/-- A step that ends the extraction is not followed by any other. -/
theorem bind_of_error {x : Extraction α} {f : α → Extraction β} {state state' : ExtractionState}
    {abort : Abort} (h : x state = .error abort state') :
    (x >>= f) state = .error abort state' := by
  show EStateM.bind x f state = _
  rw [EStateM.bind, h]

/-- What a step of resolution answers, it answers as a step of an extraction. -/
theorem ofResolver_eq_ok {step : Resolver α} {state : ExtractionState} {resolver : ResolverState}
    {a : α} (h : step state.resolver = .ok a resolver) :
    ofResolver step state = .ok a { state with resolver } := by
  rw [ofResolver, h]

/-- A schema of an endpoint with a run is resolved, and its name is bound if that succeeds. -/
theorem resolveBound_of_runs {context : Context} {node : Node} {name : ModelName}
    {state : ExtractionState} {resolver : ResolverState} {resolution : Resolution}
    (h : Runs context [] (.atNode node name false) state.resolver resolution resolver) :
    resolveBound context node name state = .ok () { state with
      resolver
      bindings := if resolution.succeeded then
        state.bindings.insertNew name resolution.references else state.bindings } := by
  refine (bind_of_ok (ofResolver_eq_ok h.step_eq_ok)).trans ?_
  cases resolution.succeeded <;> rfl

/-! ## Steps that are cut short -/

/-- Models have been registered as in a complete extraction, up to some point, and the extraction
was cancelled there. -/
def Stopped (document : Document) (limit : Nat) (complete cut : ExtractionState) : Prop :=
  cut.resolver.cancelled = true ∧
    document.BreaksOff limit complete.resolver.repository cut.resolver.repository

/-- A step does the same as another one, until it is cancelled. The latter is not cancelled by
itself. -/
structure CutShort (document : Document) (limit : Nat) (complete cut : Extraction α) : Prop where
  grows : ∀ state a state', complete state = .ok a state' →
    state.resolver.Grows state'.resolver ∧ state'.resolver.cancelled = state.resolver.cancelled
  /-- Until the cancellation, the same is done. -/
  live : ∀ state a state', state.resolver.cancelled = false → complete state = .ok a state' →
    cut state = .ok a state' ∨ Stopped document limit state' (stateAfter cut state)
  /-- After the cancellation, no model is registered. -/
  idle : ∀ state, state.resolver.cancelled = true →
    (stateAfter cut state).resolver.cancelled = true ∧
      (stateAfter cut state).resolver.repository = state.resolver.repository

namespace Stopped

variable {document : Document} {limit : Nat} {complete complete' cut cut' : ExtractionState}

/-- The complete extraction goes on, and the one that was cancelled registers nothing. -/
theorem mono (h : Stopped document limit complete cut)
    (hgrows : complete.resolver.Grows complete'.resolver) (hcut : cut'.resolver.cancelled = true)
    (hrepository : cut'.resolver.repository = cut.resolver.repository) :
    Stopped document limit complete' cut' :=
  ⟨hcut, by rw [hrepository]; exact h.2.mono hgrows.models⟩

end Stopped

namespace CutShort

variable {document : Document} {limit : Nat}

/-- A step that leaves the models and the cancellation alone. -/
theorem of_silent {step : Extraction α}
    (hgrows : ∀ state a state', step state = .ok a state' →
      state.resolver.Grows state'.resolver)
    (hcancelled : ∀ state, (stateAfter step state).resolver.cancelled = state.resolver.cancelled)
    (hrepository : ∀ state,
      (stateAfter step state).resolver.repository = state.resolver.repository) :
    CutShort document limit step step where
  grows state a state' h := ⟨hgrows state a state' h, by
    rw [← hcancelled state, stateAfter_of_ok h]⟩
  live _ _ _ _ h := .inl h
  idle state h := ⟨(hcancelled state).trans h, hrepository state⟩

/-- A step that does not touch the state of resolution. -/
theorem of_resolver {step : Extraction α}
    (h : ∀ state, (stateAfter step state).resolver = state.resolver) :
    CutShort document limit step step := by
  refine .of_silent (fun state a state' hstep => ?_) (fun state => by rw [h]) fun state => by rw [h]
  have hresolver := h state
  rw [stateAfter_of_ok hstep] at hresolver
  rw [hresolver]
  exact .refl _

/-- A step and whatever follows it.

**Proof sketch.** If the first step is cut short, what follows registers nothing; else it begins in
the same state as in the complete extraction. -/
theorem bind {x x' : Extraction α} {f f' : α → Extraction β} (hx : CutShort document limit x x')
    (hf : ∀ a, CutShort document limit (f a) (f' a)) :
    CutShort document limit (x >>= f) (x' >>= f') where
  grows := by
    intro state b state' h
    obtain ⟨a, s, hfirst, hrest⟩ := bind_eq_ok_iff.1 h
    obtain ⟨hgrows, hcancelled⟩ := hx.grows state a s hfirst
    obtain ⟨hgrows', hcancelled'⟩ := (hf a).grows s b state' hrest
    exact ⟨hgrows.trans hgrows', hcancelled'.trans hcancelled⟩
  live := by
    intro state b state' hstate h
    obtain ⟨a, s, hfirst, hrest⟩ := bind_eq_ok_iff.1 h
    obtain ⟨-, hcancelled⟩ := hx.grows state a s hfirst
    obtain ⟨hgrows', -⟩ := (hf a).grows s b state' hrest
    rcases hx.live state a s hstate hfirst with hsame | hstopped
    · rw [stateAfter, bind_of_ok hsame]
      exact (hf a).live s b state' (hcancelled.trans hstate) hrest
    · cases hcut : x' state with
      | ok a' s' =>
        rw [stateAfter_of_ok hcut] at hstopped
        obtain ⟨hcancelled', hrepository⟩ := (hf a').idle s' hstopped.1
        rw [stateAfter, bind_of_ok hcut]
        exact .inr (hstopped.mono hgrows' hcancelled' hrepository)
      | error abort s' =>
        rw [stateAfter_of_error hcut] at hstopped
        rw [stateAfter, bind_of_error hcut]
        exact .inr (hstopped.mono hgrows' hstopped.1 rfl)
  idle := by
    intro state hstate
    obtain ⟨hcancelled, hrepository⟩ := hx.idle state hstate
    cases hcut : x' state with
    | ok a s =>
      rw [stateAfter_of_ok hcut] at hcancelled hrepository
      obtain ⟨hcancelled', hrepository'⟩ := (hf a).idle s hcancelled
      rw [stateAfter, bind_of_ok hcut]
      exact ⟨hcancelled', hrepository'.trans hrepository⟩
    | error abort s =>
      rw [stateAfter_of_error hcut] at hcancelled hrepository
      rw [stateAfter, bind_of_error hcut]
      exact ⟨hcancelled, hrepository⟩

/-- A diagnostic is recorded in either case. -/
theorem record (diagnostic : Diagnostic) :
    CutShort document limit (record diagnostic) (record diagnostic) := by
  refine .of_silent ?_ (fun _ => rfl) fun _ => rfl
  rintro state a state' h
  cases h
  exact .record _ _

/-- Changes of the index register no models. -/
theorem changeIndex (change : PathIndex → Except PathIndexError (α × PathIndex)) :
    CutShort document limit (changeIndex change) (changeIndex change) := by
  refine .of_resolver fun state => ?_
  simp only [stateAfter, changeIndex_apply]
  cases change state.index <;> rfl

/-- A value that may end the extraction registers no model. -/
theorem ofExcept (result : Except Abort α) :
    CutShort document limit (ofExcept result) (ofExcept result) := by
  refine .of_resolver fun state => ?_
  cases result <;> rfl

end CutShort

/-! ## The passes -/

variable {document : Document} {limit : Nat}

/-- The resolution of a schema that the document asks for is cut short. -/
theorem cutShort_resolveBound {node : Node} {name : ModelName}
    (hrequest : (name, node) ∈ document.requests) :
    CutShort document limit (resolveBound ⟨document, none⟩ node name)
      (resolveBound ⟨document, some limit⟩ node name) where
  grows := by
    rintro state ⟨⟩ state' h
    refine ⟨(grows_resolveBound h).resolver, ?_⟩
    obtain ⟨resolution, resolver, hrun, rfl⟩ := resolveBound_ok h
    exact hrun.cancelled_eq
  live := by
    rintro state ⟨⟩ state' hstate h
    obtain ⟨resolution, resolver, hrun, rfl⟩ := resolveBound_ok h
    obtain ⟨resolution', resolver', hcut, ⟨rfl, rfl⟩ | hstopped⟩ :=
      hrun.eq_or_breaksOff hstate (.request hrequest) limit
    · exact .inl (resolveBound_of_runs hcut)
    · rw [stateAfter_of_ok (resolveBound_of_runs hcut)]
      exact .inr hstopped
  idle := by
    intro state hstate
    rw [stateAfter_of_ok (resolveBound_of_runs (.cancelled hstate))]
    exact ⟨hstate, rfl⟩

/-- The resolution of a component is cut short. -/
theorem cutShort_resolveComponent {id : String} {node : Node}
    (hfind : document.schemas.find? id = some node) :
    CutShort document limit (ofResolver (resolveComponent ⟨document, none⟩ id node))
      (ofResolver (resolveComponent ⟨document, some limit⟩ id node)) where
  grows := by
    intro state answer state' h
    refine ⟨(grows_resolveComponent h).1.resolver, ?_⟩
    obtain ⟨resolver, hcomponent, rfl⟩ := ofResolver_ok h
    rcases resolveComponent_ok hcomponent with ⟨-, -, rfl⟩ | ⟨resolution, s, -, -, -, hrun, rfl⟩
    · rfl
    · exact (ResolverState.cancelled_memoise _ _ _).trans hrun.cancelled_eq
  live := by
    intro state answer state' hstate h
    obtain ⟨resolver, hcomponent, rfl⟩ := ofResolver_ok h
    rcases resolveComponent_ok hcomponent with
      ⟨hknown, rfl, rfl⟩ | ⟨resolution, s, hname, hmemo, rfl, hrun, rfl⟩
    · exact .inl (ofResolver_eq_ok (resolveComponent_of_known hknown))
    · obtain ⟨resolution', s', hcut, ⟨rfl, rfl⟩ | ⟨hcancelled, hbreaks⟩⟩ :=
        hrun.eq_or_breaksOff hstate (.component hfind) limit
      · exact .inl (ofResolver_eq_ok (resolveComponent_of_runs hname hmemo hcut))
      · rw [stateAfter_of_ok (ofResolver_eq_ok (resolveComponent_of_runs hname hmemo hcut))]
        exact .inr ⟨by simpa using hcancelled, by simpa using hbreaks⟩
  idle := by
    intro state hstate
    by_cases hknown : state.resolver.repository.contains id = true ∨
        state.resolver.memo.contains id = true
    · rw [stateAfter_of_ok (ofResolver_eq_ok (resolveComponent_of_known hknown))]
      exact ⟨hstate, rfl⟩
    · obtain ⟨hname, hmemo⟩ := not_or.1 hknown
      rw [Bool.not_eq_true] at hname hmemo
      rw [stateAfter_of_ok
        (ofResolver_eq_ok (resolveComponent_of_runs hname hmemo (.cancelled hstate)))]
      exact ⟨by simpa using hstate, by simp⟩

/-- Steps that are cut short make up passes over paths that are. -/
theorem congruence_cutShort (document : Document) (limit : Nat) :
    Congruence document none (some limit) fun _ complete cut =>
      CutShort document limit complete cut where
  pure _ := .of_resolver fun _ => rfl
  bind := .bind
  isCancelled := .of_resolver fun _ => rfl
  hasEndpoint _ _ := .of_resolver fun _ => rfl
  ofExcept := .ofExcept
  record := .record
  changeIndex := .changeIndex
  bound := cutShort_resolveBound

/-- The pass over components is cut short. -/
theorem cutShort_extractComponents :
    CutShort document limit (extractComponents ⟨document, none⟩ document.schemas.entries)
      (extractComponents ⟨document, some limit⟩ document.schemas.entries) :=
  (congruence_cutShort document limit).extractComponents _ _ fun _ hentry =>
    cutShort_resolveComponent (SortedMap.find?_of_mem_entries hentry)

end Extraction

end ApiCatalog
