import ApiCatalog.Proofs.Analysis.Bindings
import ApiCatalog.Proofs.Extraction.Turns

set_option autoImplicit false

/-!
# Look-ups of an analysis

An analysis ends without a result only if it was cancelled, or if it comes to a reference that
cannot be looked up at all: if aliases end, one that leads to a malformed path. Otherwise every
reference that it comes to is dereferenced or reported, wherever it stands.

## Main definitions

* `Document.EndingAliases`: there is an end to the aliases of every kind.
* `Document.Aborts`: a reference that stands in a document ends an analysis that comes to it.
* `Document.TakenUp`: what a complete extraction has taken up.

## Main results

* `ApiCatalog.aborts_of_extract`: what ends an extraction.
* `ApiCatalog.takenUp_of_extract`: what an extraction has taken up that was not cancelled.
* `ApiCatalog.cancelled_of_extract`: an extraction is cancelled only by request.
* `ApiCatalog.lookups_of_analyze`: what comes of the references of an analysis.
* `ApiCatalog.aborted_malformedPlaces`: malformed references that end an analysis.
-/

namespace ApiCatalog

namespace Document

variable {document : Document}

/-! ## What ends an analysis -/

/-- There is an end to the aliases of every kind that an analysis looks up. -/
structure EndingAliases (document : Document) : Prop where
  schemas : AliasesEnd .schema document.schemas
  parameters : AliasesEnd .parameter document.allComponents.parameters
  requestBodies : AliasesEnd .requestBody document.allComponents.requestBodies
  responses : AliasesEnd .response document.allComponents.responses

/-- A reference that stands in a document ends an analysis that comes to it. -/
inductive Aborts (document : Document) : Abort → Prop
  /-- A reference to a schema. -/
  | schema {abort : Abort} (h : document.SchemaAborts abort) : Aborts document abort
  /-- A reference to a parameter that the operations of a path share. -/
  | parameter {template : String} {item : PathItem} {abort : Abort}
      (hpath : (template, item) ∈ document.pathEntries)
      (h : document.ParametersAbort item.parameters abort) : Aborts document abort
  /-- A reference to a parameter, the request body or a response of an operation. -/
  | operation {template : String} {item : PathItem} {method : HttpMethod} {operation : Operation}
      {abort : Abort} (hpath : (template, item) ∈ document.pathEntries)
      (hoperation : (method, operation) ∈ item.operations)
      (h : document.OperationAborts operation abort) : Aborts document abort

/-- If aliases end, a part cannot be looked up only because of a path that is malformed. -/
theorem get_error_cases {α : Type} {kind : ComponentKind} {entries : SortedMap (OrReference α)}
    (hends : AliasesEnd kind entries) {part : OrReference α} {abort : Abort}
    (h : part.get kind entries = .error abort) :
    ∃ path, Reference.ofPath? path = none ∧ abort = .malformedReference path := by
  cases part with
  | inline value => cases h
  | reference target =>
    obtain ⟨last, -, hlast⟩ := lookUp_error_cases hends h
    exact ⟨last, hlast⟩

/-- If aliases end, parameters cannot be looked up only because of a malformed path. -/
theorem ParametersAbort.malformed (hends : document.EndingAliases)
    {entries : List (OrReference Parameter)} {abort : Abort}
    (h : document.ParametersAbort entries abort) :
    ∃ path, Reference.ofPath? path = none ∧ abort = .malformedReference path := by
  obtain ⟨entry, -, hentry⟩ := h
  exact get_error_cases hends.parameters hentry

/-- **If aliases end, only malformed paths end an analysis.** -/
theorem Aborts.malformed (hends : document.EndingAliases) {abort : Abort}
    (h : document.Aborts abort) :
    ∃ path, Reference.ofPath? path = none ∧ abort = .malformedReference path := by
  cases h with
  | schema h =>
    cases h with
    | nameless _ hname => exact ⟨_, componentName_eq_error hname⟩
    | astray _ _ hfound | union _ _ _ hfound =>
      obtain ⟨last, -, hlast⟩ := lookUp_error_cases hends.schemas hfound
      exact ⟨last, hlast⟩
  | parameter _ h => exact h.malformed hends
  | operation _ _ h =>
    rcases h with h | ⟨body, -, hbody⟩ | ⟨entry, -, hentry⟩
    · exact h.malformed hends
    · exact get_error_cases hends.requestBodies hbody
    · exact get_error_cases hends.responses hentry

end Document

section Analysis

variable {document : Document} {options : Options}

/-- What ends the resolution of a schema is excused by the references of the document. -/
theorem excused_aborts (document : Document) (cancelAt : Option Nat) :
    Extraction.Excused ⟨document, cancelAt⟩ document.Aborts where
  resolve := by
    intro name node state abort state' hrequest h
    have haborts : Frame.Aborts ⟨document, cancelAt⟩ ⟨[], .atNode node name false, state⟩ abort :=
      ⟨state', h⟩
    exact .schema (haborts.exposed (.request hrequest))
  parameters := fun hpath h => .parameter hpath h
  operation := fun hpath hoperation h => .operation hpath hoperation h

/-- What ends the resolution of a component is a reference that stands in the document. -/
theorem aborts_of_resolveComponent {cancelAt : Option Nat} {id : String} {node : Node}
    (hnode : document.schemas.find? id = some node) {state state' : ResolverState} {abort : Abort}
    (h : resolveComponent ⟨document, cancelAt⟩ id node state = .error abort state') :
    document.Aborts abort := by
  have haborts : Frame.Aborts ⟨document, cancelAt⟩ ⟨[id], .atNode node id false, state⟩ abort :=
    ⟨state', (resolveComponent_error h).2.2⟩
  exact .schema (haborts.exposed (.component hnode))

/-- The pass over components is ended only by references that stand in the document. -/
theorem extractComponents_yields {cancelAt : Option Nat} {components : List (String × Node)}
    (hcomponents : components ⊆ document.schemas.entries) (state : ExtractionState) :
    Extraction.Yields (Extraction.extractComponents ⟨document, cancelAt⟩ components) state
      (fun _ _ => True) document.Aborts := by
  induction components generalizing state with
  | nil => exact .pure trivial
  | cons entry rest ih =>
    obtain ⟨hfirst, hrest⟩ := List.cons_subset.1 hcomponents
    refine .unlessCancelled (fun _ => trivial) fun _ => ?_
    have hcomponent : Extraction.Yields
        (Extraction.ofResolver (resolveComponent ⟨document, cancelAt⟩ entry.1 entry.2)) state
        (fun _ _ => True) document.Aborts :=
      .ofResolver (fun _ _ _ => trivial) fun _ _ hresolve =>
        aborts_of_resolveComponent (SortedMap.find?_of_mem_entries hfirst) hresolve
    exact hcomponent.bind fun _ s _ _ => ih hrest s

/-- In the state in which an extraction begins no path was taken up. -/
theorem indexed_initialState : document.Indexed [] options.initialState :=
  Extraction.indexed_start fun _ _ _ hmemo => nomatch hmemo

/-- **What ends an extraction**: a reference that stands in the document. -/
theorem aborts_of_extract {abort : Abort} (h : extract document options = .error abort) :
    document.Aborts abort := by
  have hpasses : Extraction.Yields (passes document options) options.initialState
      (fun _ _ => True) document.Aborts := by
    refine (Extraction.extractPaths_yields (excused_aborts document options.cancelAt)
      (List.Subset.refl _) indexed_initialState).bind fun _ s _ _ => ?_
    exact .ite (fun _ => extractComponents_yields (List.Subset.refl _) s) fun _ => .pure trivial
  unfold extract at h
  cases hstep : passes document options options.initialState with
  | ok answer state =>
    rw [hstep] at h
    cases h
  | error abort' state =>
    rw [hstep] at h
    cases h
    exact hpasses.abort hstep

/-! ## What a complete extraction has taken up -/

/-- What a complete extraction has taken up. -/
structure Document.TakenUp (document : Document) (options : Options)
    (passed final : ExtractionState) : Prop where
  /-- The shared parameters of each path. -/
  shared : ∀ template item, (template, item) ∈ document.pathEntries →
    Extraction.TakesUpParameters ⟨document, options.cancelAt⟩ template 0 item.parameters
      final.resolver
  /-- The endpoints are those of the operations that provide them. -/
  endpoints : ∀ id method endpoint, final.index.endpointAt id method = some endpoint ↔
    ∃ template item operation, document.Provides final.index id method template item operation ∧
      document.endpoint template item method operation = endpoint
  /-- The operations that provide endpoints. -/
  operations : ∀ id method template item operation,
    document.Provides final.index id method template item operation →
      Extraction.TakesUp ⟨document, options.cancelAt⟩ template method operation final.resolver
  /-- The components, unless their names are taken or they were resolved before. -/
  components : options.includeComponents = true → ∀ earlier id node later,
    document.schemas.entries = earlier ++ (id, node) :: later →
      ∃ before, Extraction.extractComponents ⟨document, options.cancelAt⟩ earlier passed =
          .ok () before ∧
        (before.resolver.repository.contains id = true ∨
          before.resolver.memo.contains id = true ∨
          Resolves ⟨document, options.cancelAt⟩ [id] id node final.resolver)

/-- An extraction begins with a pass over the paths. The pass over the components that may follow
takes nothing away and leaves the index as it is. -/
theorem exists_passed_of_extract {final : ExtractionState}
    (h : extract document options = .ok final) :
    ∃ passed, Extraction.extractPaths ⟨document, options.cancelAt⟩ document.pathEntries
        options.initialState = .ok () passed ∧ passed.Grows final ∧ final.index = passed.index ∧
      (options.includeComponents = true → Extraction.extractComponents
        ⟨document, options.cancelAt⟩ document.schemas.entries passed = .ok () final) := by
  obtain ⟨passed, hpaths, ⟨-, hcomponents⟩ | ⟨hexcluded, rfl⟩⟩ := extract_passes h
  · obtain ⟨hgrows, hindex, -⟩ := Extraction.grows_extractComponents hcomponents
    exact ⟨passed, hpaths, hgrows, hindex, fun _ => hcomponents⟩
  · refine ⟨final, hpaths, .refl _, rfl, fun hincluded => ?_⟩
    rw [hincluded] at hexcluded
    cases hexcluded

/-- **What an extraction has taken up** that was not cancelled, after a pass over the paths. -/
theorem takenUp_of_extract {final : ExtractionState} (h : extract document options = .ok final)
    (hend : final.resolver.cancelled = false) :
    ∃ passed, Extraction.extractPaths ⟨document, options.cancelAt⟩ document.pathEntries
        options.initialState = .ok () passed ∧ document.TakenUp options passed final := by
  obtain ⟨passed, hpaths, hgrows, hindex, hcomponents⟩ := exists_passed_of_extract h
  refine ⟨passed, hpaths, ⟨fun template item hpath => ?_, fun id method endpoint => ?_,
    fun id method template item operation hprovides => ?_,
    fun hincluded earlier id node later hsplit => ?_⟩⟩
  · exact Extraction.takesUpParameters_of_extractPaths indexed_initialState hpaths hgrows hend hpath
  · obtain ⟨hindexed, -⟩ := Extraction.indexed_of_pass (.inl indexed_initialState) hpaths
      (hgrows.not_cancelled hend)
    rw [hindex, hindexed.endpointAt (hgrows.not_cancelled hend)]
    exact Document.findSome?_contribution_eq_some
  · rw [hindex] at hprovides
    exact Extraction.takesUp_of_provides indexed_initialState hpaths hgrows hend hprovides
  · exact Extraction.resolves_of_extractComponents (hsplit ▸ hcomponents hincluded) hend

/-! ## Extractions that nothing cancels -/

/-- **An extraction is cancelled only by request**: before it begins, or at a number of models. -/
theorem cancelled_of_extract {final : ExtractionState} (h : extract document options = .ok final)
    (hend : final.resolver.cancelled = true) :
    options.cancelled = true ∨ options.cancelAt ≠ none := by
  by_contra hnone
  obtain ⟨hbegin, hnever⟩ := not_or.1 hnone
  rw [Bool.not_eq_true] at hbegin
  rw [not_not] at hnever
  have hpaths : Extraction.Invariant ⟨document, options.cancelAt⟩
      fun state => state.resolver.cancelled = false := by
    refine ⟨fun diagnostic state _ state' hactive hstep => ?_, fun _ _ hactive => hactive,
      fun node name state _ state' hactive hstep => ?_⟩
    · cases hstep
      exact hactive
    · obtain ⟨resolution, resolver, hrun, rfl⟩ := Extraction.resolveBound_ok hstep
      rw [hnever] at hrun
      exact hrun.cancelled_eq.trans hactive
  have hactive : final.resolver.cancelled = false := by
    refine extract_preserves h hbegin hpaths fun _ entry _ state _ state' hactive hstep => ?_
    obtain ⟨resolver, hcomponent, rfl⟩ := Extraction.ofResolver_ok hstep
    rcases resolveComponent_ok hcomponent with ⟨-, -, rfl⟩ | ⟨resolution, s, -, -, -, hrun, rfl⟩
    · exact hactive
    · rw [hnever] at hrun
      exact (ResolverState.cancelled_memoise _ _ _).trans (hrun.cancelled_eq.trans hactive)
  rw [hactive] at hend
  cases hend

end Analysis

/-- **What comes of the references of an analysis.** An analysis ends without a result only if it
was cancelled by request, or if it comes to a reference that stands in the document and cannot be
looked up. If aliases end, such a reference is malformed: it leads to a path from which no reference
can be made. Whatever other paths the references of the document have, and wherever these stand, an
analysis with a result has dereferenced or reported each of them that it came to: the parameters of
paths, the parameters, bodies and responses of the operations that the index has, and all references
that their schemas and those of the components lead to.

**Proof sketch.** `aborts_of_extract` and `cancelled_of_extract` tell what there is instead of a
result; `takenUp_of_extract` tells what a result means. -/
theorem lookups_of_analyze (document : Document) (options : Options) :
    (∀ error, analyze document options = .error error →
      (error = .cancelled ∧ (options.cancelled = true ∨ options.cancelAt ≠ none)) ∨
        ∃ abort, error = .aborted abort ∧ document.Aborts abort) ∧
    (document.EndingAliases → ∀ abort, document.Aborts abort →
      ∃ path, Reference.ofPath? path = none ∧ abort = .malformedReference path) ∧
    ∀ analysis, analyze document options = .ok analysis → ∃ passed final,
      Extraction.extractPaths ⟨document, options.cancelAt⟩ document.pathEntries
        options.initialState = .ok () passed ∧
      analysis = .ofState final ∧ document.TakenUp options passed final := by
  refine ⟨fun error h => ?_, fun hends abort haborts => haborts.malformed hends,
    fun analysis h => ?_⟩
  · unfold analyze at h
    cases hextract : extract document options with
    | error abort =>
      rw [hextract] at h
      cases h
      exact .inr ⟨abort, rfl, aborts_of_extract hextract⟩
    | ok final =>
      rw [hextract] at h
      dsimp only at h
      split at h
      · next hcancelled =>
        cases h
        exact .inl ⟨rfl, cancelled_of_extract hextract hcancelled⟩
      · cases h
  · obtain ⟨final, hextract, hend, rfl⟩ := analyze_ok h
    obtain ⟨passed, hpaths, htakenUp⟩ := takenUp_of_extract hextract hend
    exact ⟨passed, final, hpaths, rfl, htakenUp⟩

/-- The parameter of a path that is not declared, and a property that stands in another file. -/
def strayParts : Document :=
  .ofPaths
    [("/a", { parameters := [.reference "#/components/parameters/gone"] })]
    [("A", .inline { types := .ofList [.object],
                     properties := [("p", .reference "other.yaml#/Pet")] })]

/-- The parameter is looked up in vain and reported. -/
theorem lookups_strayParts :
    ∃ analysis, analyze strayParts {} = .ok analysis ∧
      .unresolvedReference "/a parameter #0" "#/components/parameters/gone"
        "Unresolvable path: #/components/parameters/gone" ∈ analysis.diagnostics := by
  have hcheck : ((analyze strayParts {}).toOption.any fun _ => true) = true := by decide +kernel
  obtain ⟨analysis, h, -⟩ := exists_of_any_toOption hcheck
  refine ⟨analysis, h, ?_⟩
  obtain ⟨-, -, hresult⟩ := lookups_of_analyze strayParts {}
  obtain ⟨passed, final, -, rfl, htakenUp⟩ := hresult analysis h
  have hpath : ("/a", { parameters := [.reference "#/components/parameters/gone"] }) ∈
      strayParts.pathEntries := .head _
  have hlost : strayParts.parameter (.reference "#/components/parameters/gone") =
      .ok (.error (.unresolvable "#/components/parameters/gone")) := by
    rw [Document.parameter, OrReference.get, lookUp, lookUpFrom]
    rfl
  rcases (htakenUp.shared _ _ hpath).parameters 0 _ rfl with
    ⟨found, hfound⟩ | ⟨error, hreason, hmem⟩
  · cases hlost.symm.trans hfound
  · cases hlost.symm.trans hreason
    exact hmem

/-- Documents with a malformed reference: in a property, in a union, as a parameter, as a body and
as a response. -/
def malformedPlaces : List (Document × String) :=
  [(.ofSchemas [("A", .inline { types := .ofList [.object],
                                properties := [("p", .reference "#/components/schemas")] })],
    "#/components/schemas"),
   (.ofSchemas [("A", .inline { anyOf := [.reference "other.yaml#/Pet"] })], "other.yaml#/Pet"),
   (.ofPaths [("/a", { parameters := [.reference "other.yaml#/limit"] })] [],
    "other.yaml#/limit"),
   (.ofPaths [("/a", { get := some {
      requestBody := some (.reference "#/definitions/Body") } })] [],
    "#/definitions/Body"),
   (.ofPaths [("/a", { get := some {
      responses := some (.ofList [("200", .reference "")]) } })] [],
    "")]

/-- **A malformed reference may end an analysis**, in every place in which references stand. -/
theorem aborted_malformedPlaces :
    malformedPlaces.map (fun place => analyze place.1 {}) =
      malformedPlaces.map fun place => .error (.aborted (.malformedReference place.2)) := by
  decide +kernel

end ApiCatalog
