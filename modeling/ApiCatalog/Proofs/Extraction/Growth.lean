import ApiCatalog.Proofs.Extraction.References

set_option autoImplicit false

/-!
# Extractions only add

Whatever an extraction does, its resolutions lead to later states, and a name that is bound keeps
its references.

## Main definitions

* `ExtractionState.Grows`: one state of an extraction comes before another.

## Main results

* `Extraction.congruence_grows`: the pass over paths leads to a later state, in particular
  `Extraction.grows_extractPath` and `Extraction.grows_extractPaths`.
* `Extraction.grows_extractComponents`: so does the pass over components, and it binds no name.
-/

namespace ApiCatalog

/-- One state of an extraction comes before another. -/
structure ExtractionState.Grows (state state' : ExtractionState) : Prop where
  resolver : state.resolver.Grows state'.resolver
  bindings : ∀ name references, state.bindings.find? name = some references →
    state'.bindings.find? name = some references

namespace ExtractionState.Grows

variable {state state₁ state₂ : ExtractionState}

/-- A state comes before itself. -/
theorem refl (state : ExtractionState) : state.Grows state :=
  ⟨.refl _, fun _ _ h => h⟩

/-- Later than later is later. -/
theorem trans (h₁ : state.Grows state₁) (h₂ : state₁.Grows state₂) : state.Grows state₂ :=
  ⟨h₁.resolver.trans h₂.resolver, fun name references h =>
    h₂.bindings name references (h₁.bindings name references h)⟩

/-- What is not cancelled later was not cancelled before. -/
theorem not_cancelled (h : state.Grows state₁) (hend : state₁.resolver.cancelled = false) :
    state.resolver.cancelled = false :=
  h.resolver.not_cancelled hend

end ExtractionState.Grows

namespace Extraction

variable {state state' : ExtractionState}

/-- A value that is there is answered. -/
theorem ofExcept_eq_ok_iff {α : Type} {result : Except Abort α} {a : α} :
    ofExcept result state = .ok a state' ↔ result = .ok a ∧ state = state' := by
  cases result with
  | ok b =>
    show EStateM.Result.ok b state = _ ↔ _
    simp
  | error abort =>
    show EStateM.Result.error abort state = _ ↔ _
    simp

/-- A resolution for an endpoint leads to a later state. -/
theorem grows_resolveBound {context : Context} {node : Node} {name : ModelName}
    (h : resolveBound context node name state = .ok () state') : state.Grows state' := by
  obtain ⟨resolution, resolver, hrun, rfl⟩ := resolveBound_ok h
  refine ⟨hrun.grows, fun other references hfind => ?_⟩
  show OrderedMap.find? (if resolution.succeeded then _ else _) other = some references
  split
  · rw [OrderedMap.find?_insertNew, hfind]
    rfl
  · exact hfind

/-- The pass over paths leads to a later state. -/
theorem congruence_grows (document : Document) (cancelAt : Option Nat)
    (origin : ExtractionState) :
    Congruence document cancelAt cancelAt fun _ step _ => Preserves origin.Grows step := by
  refine congruence_preserves ?_ ?_ ?_
  · rintro diagnostic state answer state' hgrows hstep
    cases hstep
    exact hgrows.trans ⟨.record _ _, fun _ _ h => h⟩
  · exact fun state index hgrows => ⟨hgrows.resolver, hgrows.bindings⟩
  · intro name node _ state answer state' hgrows hstep
    exact hgrows.trans (grows_resolveBound hstep)

section Paths

variable {document : Document} {cancelAt : Option Nat} {template : String} {item : PathItem}

/-- The collection of parameters leads to a later state. -/
theorem grows_collectParameters {entries : List (OrReference Parameter)} {index : Nat}
    {collected answer : ParameterMap}
    (hrequests : document.parameterRequests template entries ⊆ document.requests)
    (h : collectParameters ⟨document, cancelAt⟩ template index entries collected state =
      .ok answer state') : state.Grows state' :=
  (congruence_grows document cancelAt state).collectParameters hrequests (fun _ _ => trivial)
    _ _ _ _ _ (.refl state) h

/-- The building of an endpoint leads to a later state. -/
theorem grows_buildEndpoint {method : HttpMethod} {operation : Operation} {shared : ParameterMap}
    {walked : WalkedPath} {endpoint : Endpoint}
    (hrequests : document.operationRequests template method operation ⊆ document.requests)
    (h : buildEndpoint ⟨document, cancelAt⟩ template method operation shared walked state =
      .ok endpoint state') : state.Grows state' :=
  (congruence_grows document cancelAt state).buildEndpoint hrequests (fun _ _ => trivial)
    _ _ _ _ _ (.refl state) h

/-- A walk along segments leads to a later state. -/
theorem grows_walkSegments (document : Document) (cancelAt : Option Nat) {segments : List String}
    {walked : WalkedPath} {answer : Option WalkedPath}
    (h : walkSegments template segments walked state = .ok answer state') : state.Grows state' :=
  (congruence_grows document cancelAt state).walkSegments _ _ _ _ _ _ (.refl state) h

/-- Operations of a path lead to a later state. -/
theorem grows_extractOperations {shared : ParameterMap} {walked : WalkedPath}
    {operations : List (HttpMethod × Operation)}
    (hpath : (template, item) ∈ document.pathEntries) (hoperations : operations ⊆ item.operations)
    (h : extractOperations ⟨document, cancelAt⟩ template shared walked operations state =
      .ok () state') : state.Grows state' :=
  (congruence_grows document cancelAt state).extractOperations (fun _ hentry =>
    List.Subset.trans (Document.operationRequests_subset (hoperations hentry))
      (Document.pathRequests_subset hpath)) _ _ _ _ _ (.refl state) h

/-- A path of a document leads to a later state. -/
theorem grows_extractPath {entry : String × PathItem} {answer : Unit}
    (hpath : entry ∈ document.pathEntries)
    (h : extractPath ⟨document, cancelAt⟩ entry.1 entry.2 state = .ok answer state') :
    state.Grows state' :=
  (congruence_grows document cancelAt state).extractPath (Document.pathRequests_subset hpath)
    _ _ _ (.refl state) h

/-- Paths of a document lead to a later state. -/
theorem grows_extractPaths {paths : List (String × PathItem)}
    (hpaths : paths ⊆ document.pathEntries)
    (h : extractPaths ⟨document, cancelAt⟩ paths state = .ok () state') : state.Grows state' :=
  (congruence_grows document cancelAt state).extractPathsOf hpaths _ _ _ (.refl state) h

end Paths

/-- The resolution of a component leads to a later state, and touches nothing but the state of
resolution. -/
theorem grows_resolveComponent {context : Context} {id : String} {node : Node}
    {answer : Option Resolution}
    (h : ofResolver (resolveComponent context id node) state = .ok answer state') :
    state.Grows state' ∧ state'.index = state.index ∧ state'.bindings = state.bindings := by
  obtain ⟨resolver, hcomponent, rfl⟩ := ofResolver_ok h
  refine ⟨⟨?_, fun _ _ h => h⟩, rfl, rfl⟩
  rcases resolveComponent_ok hcomponent with ⟨-, -, rfl⟩ | ⟨resolution, s, -, hmemo, -, hrun, rfl⟩
  · exact .refl _
  · exact hrun.grows.memoise (by simpa [OrderedMap.contains] using hmemo)

/-- The pass over components leads to a later state, and touches nothing but the state of
resolution. -/
theorem grows_extractComponents {context : Context} {components : List (String × Node)}
    (h : extractComponents context components state = .ok () state') :
    state.Grows state' ∧ state'.index = state.index ∧ state'.bindings = state.bindings := by
  have hpreserves : Preserves (fun s => state.Grows s ∧ s.index = state.index ∧
      s.bindings = state.bindings) (extractComponents context components) := by
    refine preserves_extractComponents fun entry _ => ?_
    rintro s answer s' ⟨hgrows, hindex, hbindings⟩ hstep
    obtain ⟨hgrows', hindex', hbindings'⟩ := grows_resolveComponent hstep
    exact ⟨hgrows.trans hgrows', hindex'.trans hindex, hbindings'.trans hbindings⟩
  exact hpreserves _ _ _ ⟨.refl _, rfl, rfl⟩ h

end Extraction

end ApiCatalog
