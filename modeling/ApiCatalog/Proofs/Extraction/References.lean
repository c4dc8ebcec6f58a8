import ApiCatalog.Proofs.Extraction.Invariant
import ApiCatalog.Proofs.Resolution.Parts

set_option autoImplicit false

/-!
# What an extraction refers to

Models are registered, and names of endpoints bound, only by resolutions. What every resolution
keeps up about the state, and what it promises about the names that it answers with, therefore
holds of the repository and the bindings at the end of an extraction.

## Main definitions

* `ApiCatalog.Sustained`: a property of the state of resolution, and of the names that may be
  referred to in a state, which all resolutions keep up.

## Main results

* `ApiCatalog.Sustained.extract`: they hold at the end of an extraction, of the names in bindings
  as well.
-/

namespace ApiCatalog

/-- A property of the state of resolution and one of names, which all resolutions that an extraction
begins keep up: the state has the first, and what is answered with success refers only to names
with the second. Components are resolved by themselves only if they are included. -/
structure Sustained (context : Context) (included : Prop) (inv : ResolverState → Prop)
    (good : ResolverState → ModelName → Prop) : Prop where
  /-- Names stay good. -/
  mono : ∀ {state state' name}, state.Grows state' → good state name → good state' name
  /-- Diagnostics do no harm. -/
  record : ∀ {state} diagnostic, inv state → inv (state.record diagnostic)
  /-- Schemas of endpoints are resolved. -/
  node : ∀ {node hint state resolution state'},
    Runs context [] (.atNode node hint false) state resolution state' → inv state →
      inv state' ∧ resolution.Refers (good state')
  /-- Components are resolved. -/
  component : ∀ {id node state resolution state'}, included →
    context.document.schemas.find? id = some node → state.memo.find? id = none →
    Runs context [id] (.atNode node id false) state resolution state' → inv state →
      inv (state'.memoise id resolution)

/-- The state of resolution has a property, and bindings refer to names that are good in it. -/
def ExtractionState.Sustains (inv : ResolverState → Prop) (good : ResolverState → ModelName → Prop)
    (state : ExtractionState) : Prop :=
  inv state.resolver ∧ ∀ references ∈ state.bindings.values, ∀ name ∈ references,
    good state.resolver name

namespace Extraction

variable {context : Context} {included : Prop} {inv : ResolverState → Prop}
  {good : ResolverState → ModelName → Prop}

/-- What a step of resolution answers, it answers as a step of an extraction. -/
theorem ofResolver_ok {α : Type} {step : Resolver α} {state state' : ExtractionState} {a : α}
    (h : ofResolver step state = .ok a state') :
    ∃ resolver, step state.resolver = .ok a resolver ∧ state' = { state with resolver } := by
  unfold ofResolver at h
  cases hstep : step state.resolver with
  | ok answer resolver =>
    rw [hstep] at h
    cases h
    exact ⟨resolver, rfl, rfl⟩
  | error abort resolver =>
    rw [hstep] at h
    cases h

/-- A schema of an endpoint is resolved by a run, and its name is bound if that succeeds. -/
theorem resolveBound_ok {node : Node} {name : ModelName} {state state' : ExtractionState}
    (h : resolveBound context node name state = .ok () state') :
    ∃ resolution resolver,
      Runs context [] (.atNode node name false) state.resolver resolution resolver ∧
      state' = { state with
        resolver
        bindings := if resolution.succeeded then
          state.bindings.insertNew name resolution.references else state.bindings } := by
  obtain ⟨resolution, s, hfirst, hlast⟩ := bind_eq_ok_iff.1 h
  obtain ⟨resolver, hnode, rfl⟩ := ofResolver_ok hfirst
  refine ⟨resolution, resolver, runs_of_ok hnode, ?_⟩
  split at hlast
  · next hsucceeded =>
    cases hlast
    rw [if_pos hsucceeded]
  · next hfailed =>
    cases hlast
    rw [if_neg hfailed]

/-- The values after an insertion that keeps what is there. -/
theorem mem_values_insertNew {bindings : Bindings} {name : ModelName}
    {references other : List ModelName} (h : other ∈ (bindings.insertNew name references).values) :
    other = references ∨ other ∈ bindings.values := by
  unfold OrderedMap.insertNew at h
  split at h
  · exact .inr h
  · exact OrderedMap.mem_values_insert h

/-- What resolutions keep up, the basic steps of the pass over paths preserve. -/
theorem invariant_sustains (h : Sustained context included inv good) :
    Invariant context (ExtractionState.Sustains inv good) where
  record := by
    rintro diagnostic state answer state' ⟨hinv, hgood⟩ hstep
    cases hstep
    exact ⟨h.record diagnostic hinv, fun references hmem name hname =>
      h.mono (.record _ _) (hgood references hmem name hname)⟩
  index := fun _ _ hsustains => hsustains
  bound := by
    rintro node name state ⟨⟩ state' ⟨hinv, hgood⟩ hstep
    obtain ⟨resolution, resolver, hrun, rfl⟩ := resolveBound_ok hstep
    obtain ⟨hinv', hrefers⟩ := h.node hrun hinv
    refine ⟨hinv', fun references hmem other hother => ?_⟩
    have hold : references ∈ state.bindings.values → good resolver other :=
      fun hmem => h.mono hrun.grows (hgood references hmem other hother)
    simp only at hmem
    split at hmem
    · next hsucceeded =>
      rcases mem_values_insertNew hmem with rfl | hmem
      · exact hrefers hsucceeded other hother
      · exact hold hmem
    · exact hold hmem

/-- What resolutions keep up, the resolution of a component preserves. -/
theorem preserves_resolveComponent (h : Sustained context included inv good) {id : String}
    {node : Node} (hincluded : included) (hfind : context.document.schemas.find? id = some node) :
    Preserves (ExtractionState.Sustains inv good)
      (ofResolver (resolveComponent context id node)) := by
  rintro state answer state' ⟨hinv, hgood⟩ hstep
  obtain ⟨resolver, hcomponent, rfl⟩ := ofResolver_ok hstep
  rcases resolveComponent_ok hcomponent with ⟨-, -, rfl⟩ | ⟨resolution, s, -, hmemo, -, hrun, rfl⟩
  · exact ⟨hinv, hgood⟩
  · have hnew : state.resolver.memo.find? id = none := by
      simpa [OrderedMap.contains] using hmemo
    exact ⟨h.component hincluded hfind hnew hrun hinv, fun references hmem name hname =>
      h.mono (hrun.grows.memoise hnew) (hgood references hmem name hname)⟩

end Extraction

/-- **What resolutions keep up holds at the end of an extraction**, of the names in bindings as
well. -/
theorem Sustained.extract {document : Document} {options : Options} {state : ExtractionState}
    {inv : ResolverState → Prop} {good : ResolverState → ModelName → Prop}
    (h : Sustained ⟨document, options.cancelAt⟩ (options.includeComponents = true) inv good)
    (hinit : inv options.initialState.resolver)
    (hextract : ApiCatalog.extract document options = .ok state) : state.Sustains inv good :=
  extract_preserves hextract ⟨hinit, fun _ hmem => nomatch hmem⟩ (Extraction.invariant_sustains h)
    fun hincluded _ hentry =>
      Extraction.preserves_resolveComponent h hincluded (SortedMap.find?_of_mem_entries hentry)

end ApiCatalog
