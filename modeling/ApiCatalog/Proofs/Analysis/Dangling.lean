import ApiCatalog.Proofs.Analysis.References

set_option autoImplicit false

/-!
# Dangling references

The references of an analysis that lead to no model. While a component is being resolved, references
back to it are answered with its id, which is a promise that a model of that name will be
registered. The promise is broken by an alias, whose schema may be registered under another id, and
by an array whose items fail. All other names are registered when they are given.

## Main definitions

* `Document.IsFailedArray`: a component that is an array, and whose own resolution failed.

## Main results

* `Runs.registered_of_succeeded`: what a schema is answered with by itself is registered.
* `ApiCatalog.dangling_of_analyze`: which references of an analysis dangle.
-/

namespace ApiCatalog

/-! ## The names of a schema's own models -/

/-- The object that a schema calls for is registered if it is said to be done. -/
theorem Runs.contains_of_object {context : Context} {active : List ModelName} {schema : Schema}
    {hint : ModelName} {state state' : ResolverState} {done : Bool}
    (h : Runs context active (.atObject schema hint) state done state') (hdone : done = true)
    (hcalled : schema.types.contains .object = true) :
    state'.repository.contains hint = true := by
  cases h with
  | noObject hnone =>
    rw [hnone] at hcalled
    cases hcalled
  | knownObject _ hknown => exact hknown
  | lostObject => cases hdone
  | object => exact Repository.contains_register_self

/-- The array that a schema calls for is registered if it is said to be done. -/
theorem Runs.contains_of_array {context : Context} {active : List ModelName} {schema : Schema}
    {hint : ModelName} {state state' : ResolverState} {done : Bool}
    (h : Runs context active (.atArray schema hint) state done state') (hdone : done = true)
    (hcalled : schema.types.contains .array = true) :
    state'.repository.contains hint = true := by
  cases h with
  | noArray hnone =>
    rw [hnone] at hcalled
    cases hcalled
  | knownArray _ hknown => exact hknown
  | noItems | anyItems | lostArray => cases hdone
  | array => exact Repository.contains_register_self

/-- **What a schema is answered with by itself is registered**: its primitives, its enumeration, its
object and array, or its composition. -/
theorem Runs.registered_of_succeeded {context : Context} {active : List ModelName}
    {schema : Schema} {hint : ModelName} {nullable : Bool} {state state' : ResolverState}
    {resolution : Resolution}
    (h : Runs context active (.atSchema schema hint nullable) state resolution state') :
    resolution.Refers fun name => state'.repository.contains name = true := by
  cases h with
  | composed =>
    intro _ name hname
    obtain rfl := List.mem_singleton.1 hname
    exact Repository.contains_register_self
  | abandoned => exact fun hfailed => nomatch hfailed
  | untyped => exact Resolution.refers_failed
  | typed _ _ hobject harray =>
    refine answers_typed (fun model hmodel => ?_) (fun hdone hcalled => ?_)
      fun hdone hcalled => harray.contains_of_array hdone hcalled
    · exact (hobject.grows.trans harray.grows).contains (contains_registerAll hmodel)
    · exact harray.grows.contains (hobject.contains_of_object hdone hcalled)

/-! ## Broken promises -/

/-- A component is written in place as an array, neither an object nor a composition, and its own
resolution failed. -/
inductive Document.IsFailedArray (document : Document) (state : ResolverState) (id : String) : Prop
  | intro {schema : Schema} {resolution : Resolution}
      (hfind : document.schemas.find? id = some (.inline schema))
      (hshape : schema.composition? = none) (hobject : schema.types.contains .object = false)
      (harray : schema.types.contains .array = true)
      (hmemo : state.memo.find? id = some resolution) (hfailed : resolution.succeeded = false)

/-- An array that was not resolved is written in place, or is an alias. -/
theorem Document.IsLostArray.cases {document : Document} {state : ResolverState} {id : String}
    (h : document.IsLostArray state id) :
    document.IsAlias id ∨ document.IsFailedArray state id := by
  obtain ⟨schema, resolution, hstands, hshape, hobject, harray, hmemo, hfailed⟩ := h
  cases hstands with
  | inPlace hfind => exact .inr ⟨hfind, hshape, hobject, harray, hmemo, hfailed⟩
  | viaAlias hfind => exact .inl ⟨_, hfind⟩

/-- An alias and a failed array are components. -/
theorem Document.mem_schemaIds_of_broken {document : Document} {state : ResolverState} {id : String}
    (h : document.IsAlias id ∨ document.IsFailedArray state id) : id ∈ document.schemas.keys := by
  rcases h with ⟨_, hfind⟩ | ⟨hfind, -⟩ <;> exact SortedMap.mem_keys_of_find? hfind

/-- **Which references of an analysis dangle**: only those to a component that is itself an alias,
or that is an array whose own resolution failed. So a name that is no component's id never dangles.
The names of primitives, enumerations, objects, arrays and compositions are what schemas are
answered with by themselves, and these are registered by then, wherever and in whatever state the
schema is resolved.

**Proof sketch.** `Runs.keeps` says that what is mentioned is registered, a stray, or an array that
was not resolved, as no component is active in the end. A stray is an alias, and so is an array that
is not written in place. -/
theorem dangling_of_analyze {document : Document} {options : Options} {analysis : Analysis}
    (h : analyze document options = .ok analysis) :
    ∃ state, extract document options = .ok state ∧ analysis = .ofState state ∧
      (∀ reference ∈ (ModelGraph.build analysis.models analysis.bindings).dangling,
        reference.target ∈ document.schemas.keys ∧
        (document.IsAlias reference.target ∨
          document.IsFailedArray state.resolver reference.target)) ∧
      (∀ name, name ∉ document.schemas.keys → ∀ source,
        ⟨source, name⟩ ∉ (ModelGraph.build analysis.models analysis.bindings).dangling) ∧
      ∀ active schema hint nullable before resolution after,
        Runs ⟨document, options.cancelAt⟩ active (.atSchema schema hint nullable) before resolution
          after → resolution.succeeded = true →
        ∀ name ∈ resolution.references, after.repository.contains name = true := by
  obtain ⟨state, hextract, hend, rfl⟩ := analyze_ok h
  have hbroken : ∀ reference ∈ (ModelGraph.build state.resolver.repository state.bindings).dangling,
      document.IsAlias reference.target ∨
        document.IsFailedArray state.resolver reference.target := by
    intro reference hmem
    obtain ⟨hmentions, hmissing⟩ := ModelGraph.mentions_of_mem_dangling hmem
    rcases kept_of_mentions hextract hend hmentions with hkept | ⟨hactive, -⟩ | hstray | hlost
    · rw [hmissing] at hkept
      cases hkept
    · cases hactive
    · exact .inl hstray.2
    · exact hlost.cases
  refine ⟨state, hextract, rfl, fun reference hmem => ?_, fun name hname source hmem => ?_, ?_⟩
  · exact ⟨Document.mem_schemaIds_of_broken (hbroken reference hmem), hbroken reference hmem⟩
  · exact hname (Document.mem_schemaIds_of_broken (hbroken _ hmem))
  · exact fun _ _ _ _ _ _ _ hrun hsucceeded => hrun.registered_of_succeeded hsucceeded

/-- The alias of an object that refers back to it, and an array of objects that refer back to it and
have a property without a type. -/
def brokenPromises : Document :=
  .ofSchemas [
    ("A", .reference "#/components/schemas/B"),
    ("B", .inline { types := .ofList [.object],
                    properties := [("p", .reference "#/components/schemas/A")] }),
    ("L", .inline { types := .ofList [.array],
                    items := some (.each (.inline {
                      types := .ofList [.object],
                      properties := [("p", .reference "#/components/schemas/L"),
                                     ("q", .inline {})] })) })]

/-- Both kinds of promises are broken. -/
theorem dangling_brokenPromises :
    ∃ analysis state, analyze brokenPromises {} = .ok analysis ∧
      (ModelGraph.build analysis.models analysis.bindings).dangling =
        [⟨"B", "A"⟩, ⟨"L[]", "L"⟩] ∧
      extract brokenPromises {} = .ok state ∧
      (brokenPromises.IsAlias "A" ∨ brokenPromises.IsFailedArray state.resolver "A") ∧
      (brokenPromises.IsAlias "L" ∨ brokenPromises.IsFailedArray state.resolver "L") := by
  have hcheck : ((analyze brokenPromises {}).toOption.any fun analysis =>
      (ModelGraph.build analysis.models analysis.bindings).dangling =
        [⟨"B", "A"⟩, ⟨"L[]", "L"⟩]) = true := by decide +kernel
  obtain ⟨analysis, h, hcheck⟩ := exists_of_any_toOption hcheck
  have hdangling : (ModelGraph.build analysis.models analysis.bindings).dangling =
      [⟨"B", "A"⟩, ⟨"L[]", "L"⟩] := by simpa using hcheck
  obtain ⟨state, hextract, -, hbroken, -⟩ := dangling_of_analyze h
  rw [hdangling] at hbroken
  exact ⟨analysis, state, h, hdangling, hextract, (hbroken ⟨"B", "A"⟩ (by simp)).2,
    (hbroken ⟨"L[]", "L"⟩ (by simp)).2⟩

end ApiCatalog
