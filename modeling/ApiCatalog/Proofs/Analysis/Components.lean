import ApiCatalog.Proofs.Analysis.Bindings
import ApiCatalog.Proofs.Resolution.Reservations
import ApiCatalog.Proofs.Translation.Components

set_option autoImplicit false

/-!
# Components of an analysis

What is registered under the id of a component. The pass over components leaves none of them out,
so that there is a model; but ids share one space of names with the parts of all schemas, and the
first registration of a name is final. The model is the component's own if its id is reserved for
it.

## Main results

* `ApiCatalog.exists_object_of_exclusive`: a component that has its id for itself, and is an object,
  is registered as the object that its schema describes.
* `ApiCatalog.exists_object_shadowed`: a component whose id is also the name of a part may not be.
-/

namespace ApiCatalog

namespace Extraction

variable {state state' : ExtractionState}

/-- The pass over components leaves none of them out: each is registered, or finished. -/
theorem settled_of_extractComponents {context : Context} {components : List (String × Node)}
    (h : extractComponents context components state = .ok () state')
    (hend : state'.resolver.cancelled = false) {id : String} {node : Node}
    (hmem : (id, node) ∈ components) :
    state'.resolver.repository.contains id = true ∨ state'.resolver.memo.contains id = true := by
  induction components generalizing state with
  | nil => cases hmem
  | cons entry rest ih =>
    obtain ⟨_, _, hcancelled, hstep⟩ := bind_eq_ok_iff.1 h
    cases hcancelled
    split at hstep
    · next hcancelled =>
      cases hstep
      rw [hcancelled] at hend
      cases hend
    · obtain ⟨answer, s, hfirst, hrest⟩ := bind_eq_ok_iff.1 hstep
      rcases List.mem_cons.1 hmem with rfl | hmem
      · have hgrows := (grows_extractComponents hrest).1
        have hs := hgrows.not_cancelled hend
        obtain ⟨resolver, hcomponent, rfl⟩ := ofResolver_ok hfirst
        have hsettled : resolver.repository.contains id = true ∨
            resolver.memo.contains id = true := by
          rcases resolveComponent_ok hcomponent with ⟨hknown, -, rfl⟩ | ⟨_, _, -, -, -, -, rfl⟩
          · exact hknown
          · rw [ResolverState.cancelled_memoise] at hs
            right
            rw [OrderedMap.contains, ResolverState.find?_memoise hs, if_pos rfl]
            rfl
        refine hsettled.imp hgrows.resolver.contains fun hmemo => ?_
        obtain ⟨resolution, hfind⟩ := Option.isSome_iff_exists.1 hmemo
        exact Option.isSome_iff_exists.2 ⟨resolution, hgrows.resolver.memo _ _ hfind⟩
      · exact ih hrest hmem

/-- Unless the extraction is cancelled, failures were reported and the id of a component is reserved
for it. -/
def Reserved (id : String) (own : Schema) (state : ExtractionState) : Prop :=
  state.resolver.cancelled = false → state.resolver.Accounted ∧ state.resolver.Reserves id own

variable {document : Document} {id : String} {own : Schema}

/-- The pass over paths reserves the id of a component that has it for itself. -/
theorem congruence_reserved (cancelAt : Option Nat)
    (hfind : document.schemas.find? id = some (.inline own)) (hown : own.IsObject)
    (hexclusive : document.Exclusive id) :
    Congruence document cancelAt cancelAt fun _ step _ => Preserves (Reserved id own) step := by
  refine congruence_preserves ?_ (fun _ _ h => h) ?_
  · rintro diagnostic state answer state' hreserved hstep hend
    cases hstep
    obtain ⟨haccounted, hreserves⟩ := hreserved hend
    exact ⟨haccounted.mono (.record _ _) rfl, hreserves.record _⟩
  · rintro name node hrequest state ⟨⟩ state' hreserved hstep hend
    obtain ⟨resolution, resolver, hrun, rfl⟩ := resolveBound_ok hstep
    obtain ⟨haccounted, hreserves⟩ := hreserved (hrun.grows.not_cancelled hend)
    exact ⟨(hrun.accounts hend trivial haccounted).1, hrun.reserves hown hexclusive hfind hend
      haccounted (.inl (hexclusive.requests _ hrequest)) hreserves⟩

/-- An object that is resolved by itself is registered. -/
theorem contains_of_runs {context : Context} {active : List ModelName}
    {state state' : ResolverState} {resolution : Resolution} (hown : own.IsObject)
    (hrun : Runs context active (.atNode (.inline own) id false) state resolution state')
    (hend : state'.cancelled = false) : state'.repository.contains id = true := by
  have hobject : own.types.contains .object = true := by
    simp [hown.types, TypeSet.contains_ofList]
  cases hrun with
  | cancelled hcancelled =>
    rw [hcancelled] at hend
    cases hend
  | inline _ hschema =>
    rcases hschema.registers hend (.inr (.inl hobject)) with hknown | ⟨-, hnot, -⟩
    · exact hknown
    · rw [hobject] at hnot
      cases hnot

/-- The resolution of a component reserves the id of a component that has it for itself. -/
theorem reserved_resolveComponent {context : Context} {other : String} {node : Node}
    (hfind : context.document.schemas.find? id = some (.inline own)) (hown : own.IsObject)
    (hexclusive : context.document.Exclusive id)
    (hother : context.document.schemas.find? other = some node) :
    Preserves (Reserved id own) (ofResolver (resolveComponent context other node)) := by
  intro state answer state' hreserved hstep hend
  obtain ⟨resolver, hcomponent, rfl⟩ := ofResolver_ok hstep
  rcases resolveComponent_ok hcomponent with ⟨-, -, rfl⟩ | ⟨resolution, s, -, -, -, hrun, rfl⟩
  · exact hreserved hend
  · have hend : s.cancelled = false := by simpa using hend
    obtain ⟨haccounted, hreserves⟩ := hreserved (hrun.grows.not_cancelled hend)
    obtain ⟨haccounted', haccounts⟩ := hrun.accounts hend trivial haccounted
    have hspares : (Stage.atNode node other false).Spares id own state.resolver := by
      cases node with
      | reference target => exact .inl (by simp [Node.findings])
      | inline schema =>
        by_cases heq : other = id
        · subst heq
          rw [hfind] at hother
          cases hother
          exact .inr ⟨rfl, rfl⟩
        · exact .inl (by
            rw [Node.findings]
            exact hexclusive.components other schema heq (.inPlace hother))
    refine ⟨haccounted'.memoise haccounts.reported, (hrun.reserves hown hexclusive hfind hend
      haccounted hspares hreserves).memoise fun heq => ?_⟩
    subst heq
    rw [hfind] at hother
    cases hother
    exact contains_of_runs hown hrun hend

end Extraction

/-! ## Objects -/

/-- **A component that has its id for itself is registered as it is described**: if its schema is an
object and nothing was reported, the model of its id has the properties that the schema declares,
each of them required exactly if the schema lists it so.

**Proof sketch.** No other schema registers a model under the id (`Runs.reserves`), and the pass
over components does not leave the component out. -/
theorem exists_object_of_exclusive {document : Document} {options : Options} {analysis : Analysis}
    {id : String} {own : Schema} (h : analyze document options = .ok analysis)
    (hsucceeded : analysis.succeeded = true) (hincluded : options.includeComponents = true)
    (hfind : document.schemas.find? id = some (.inline own)) (hown : own.IsObject)
    (hexclusive : document.Exclusive id) :
    ∃ properties, analysis.models.find? id = some (.object id properties) ∧
      (∀ name, properties.contains name = true ↔ name ∈ own.properties.map Prod.fst) ∧
      ∀ name property, properties.find? name = some property →
        property.name = name ∧ (property.modifier = .required ↔ name ∈ own.required) := by
  obtain ⟨state, hextract, hend, rfl⟩ := analyze_ok h
  obtain ⟨s, hpaths, hcomponents⟩ := extract_passes hextract
  have hcomponents : Extraction.extractComponents ⟨document, options.cancelAt⟩
      document.schemas.entries s = .ok () state := by
    rcases hcomponents with ⟨-, hcomponents⟩ | ⟨hexcluded, -⟩
    · exact hcomponents
    · rw [hincluded] at hexcluded
      cases hexcluded
  have hinit : Extraction.Reserved id own options.initialState := fun _ =>
    ⟨fun _ _ hmemo => (nomatch hmemo), fun _ hmodel => (nomatch hmodel),
      fun _ hmemo => (nomatch hmemo)⟩
  have hs : Extraction.Reserved id own s :=
    (Extraction.congruence_reserved options.cancelAt hfind hown hexclusive).extractPaths _ _ _ hinit
      hpaths
  have hreserved : Extraction.Reserved id own state :=
    Extraction.preserves_extractComponents (fun _ hentry =>
      Extraction.reserved_resolveComponent hfind hown hexclusive
        (SortedMap.find?_of_mem_entries hentry)) _ _ _ hs hcomponents
  obtain ⟨-, hreserves⟩ := hreserved hend
  have hcontains : state.resolver.repository.contains id = true := by
    rcases Extraction.settled_of_extractComponents hcomponents hend
      (SortedMap.mem_entries_of_find? hfind) with hknown | hmemo
    · exact hknown
    · obtain ⟨resolution, hfound⟩ := Option.isSome_iff_exists.1 hmemo
      exact hreserves.memo resolution hfound
  obtain ⟨model, hmodel, hname⟩ := List.mem_map.1 (Repository.contains_iff.1 hcontains)
  rcases hreserves.models model hmodel hname with
    ⟨diagnostic, hmem, -⟩ | ⟨properties, rfl, hdescribes⟩
  · have hempty : state.resolver.diagnostics = [] := List.isEmpty_iff.1 hsucceeded
    rw [hempty] at hmem
    cases hmem
  · refine ⟨properties, Repository.find?_eq_some_iff.2 ⟨hmodel, hname⟩, hdescribes.contains_iff,
      fun name property hproperty => ?_⟩
    obtain ⟨hname, hmodifier⟩ := hdescribes.property name property hproperty
    refine ⟨hname, ?_⟩
    rw [hmodifier, Modifier.ofRequired]
    by_cases hrequired : name ∈ own.required <;> simp [hrequired]

/-- An object that refers to another. -/
def neighbour : Schema where
  types := .ofList [.object]
  required := ["y"]
  properties := [("y", .inline { types := .ofList [.integer] }),
                 ("z", .reference "#/components/schemas/A")]

/-- An object with an inline property and one that refers to a component with a similar id, and a
path with a parameter. -/
def neighbours : Document :=
  .ofPaths
    [("/a", {
      parameters := [.inline {
        name := "id", location := .query
        schema := some (.inline {
          types := .ofList [.object],
          properties := [("c", .inline { types := .ofList [.object] })] }) }]
      get := some {} })]
    [("A", .inline { types := .ofList [.object],
                     properties := [("b", .inline { types := .ofList [.object] }),
                                    ("c", .reference "#/components/schemas/A.c")] }),
     ("A.c", .inline neighbour)]

/-- The second component of the neighbours is registered as it is described. -/
theorem exists_object_neighbours :
    neighbours.Exclusive "A.c" ∧ ∃ analysis, analyze neighbours {} = .ok analysis ∧
      analysis.succeeded = true ∧ ∃ properties,
        analysis.models.find? "A.c" = some (.object "A.c" properties) ∧
        (∀ name, properties.contains name = true ↔ name ∈ ["y", "z"]) ∧
        ∀ name property, properties.find? name = some property →
          property.name = name ∧ (property.modifier = .required ↔ name ∈ ["y"]) := by
  have hentries : ∀ entry ∈ neighbours.schemas.entries, entry.2.target? = none ∧
      (entry.1 ≠ "A.c" → "A.c" ∉ namesIn (entry.2.findings entry.1)) := by
    decide +kernel
  have hexclusive : neighbours.Exclusive "A.c" := by
    refine ⟨fun kind => by cases kind <;> decide, ?_, ?_⟩
    · have hrequests : ∀ request ∈ neighbours.requests,
          "A.c" ∉ namesIn (request.2.findings request.1) := by decide +kernel
      exact fun request hrequest hmem => hrequests request hrequest (mem_namesIn.2 hmem)
    · intro other schema hne hstands hmem
      cases hstands with
      | inPlace hfind =>
        have hnot := (hentries _ (SortedMap.mem_entries_of_find? hfind)).2 hne
        exact hnot (mem_namesIn.2 (by rwa [Node.findings]))
      | viaAlias hfind =>
        have hnone := (hentries _ (SortedMap.mem_entries_of_find? hfind)).1
        cases hnone
  have hcheck : ((analyze neighbours {}).toOption.any Analysis.succeeded) = true := by
    decide +kernel
  obtain ⟨analysis, h, hsucceeded⟩ := exists_of_any_toOption hcheck
  have hfind : neighbours.schemas.find? "A.c" = some (.inline neighbour) := rfl
  exact ⟨hexclusive, analysis, h, hsucceeded,
    exists_object_of_exclusive h hsucceeded rfl hfind ⟨rfl, rfl⟩ hexclusive⟩

/-- An object with an inline property, the name of which is the id of another object. -/
def homonyms : Document :=
  .ofSchemas [
    ("A", .inline { types := .ofList [.object],
                    properties := [("b", .inline { types := .ofList [.object] })] }),
    ("A.b", .inline { types := .ofList [.object],
                      properties := [("x", .inline { types := .ofList [.string] })] })]

/-- **A component need not be registered as it is described**: the inline property of the first
object is registered under the name `A.b` before the component of that id comes up, which is then
passed over in silence. -/
theorem exists_object_shadowed :
    (∃ own, homonyms.schemas.find? "A.b" = some (.inline own) ∧ own.IsObject ∧
      own.properties.map Prod.fst = ["x"]) ∧
    ∃ analysis, analyze homonyms {} = .ok analysis ∧ analysis.succeeded = true ∧
      ∃ properties, analysis.models.find? "A.b" = some (.object "A.b" properties) ∧
        properties.keys = [] := by
  have hcheck : ((analyze homonyms {}).toOption.any fun analysis =>
      analysis.succeeded && analysis.models.find? "A.b" = some (.object "A.b" ∅)) = true := by
    decide +kernel
  obtain ⟨analysis, h, hcheck⟩ := exists_of_any_toOption hcheck
  obtain ⟨hsucceeded, hmodel⟩ := Bool.and_eq_true_iff.1 hcheck
  exact ⟨⟨_, rfl, ⟨rfl, rfl⟩, rfl⟩, analysis, h, hsucceeded, ∅, by simpa using hmodel, rfl⟩

end ApiCatalog
