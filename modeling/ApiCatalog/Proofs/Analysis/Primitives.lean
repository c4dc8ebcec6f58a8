import ApiCatalog.Proofs.Analysis.References
import ApiCatalog.Proofs.Resolution.Primitives
import ApiCatalog.Proofs.Translation.Components

set_option autoImplicit false

/-!
# Primitive types of an analysis

The names of primitive types are fixed, and lie in the same space as the ids of components and all
names that are made from hints. The names that paths ask for, and those of the parts of schemas, are
never those of primitive types, whatever the templates, media types and properties of the document
are. Ids of components are not checked, so that a component may have such a name for its id; then
the first registration is final.

## Main definitions

* `Document.LeavesFree`: no component registers a model of its own under a name.

## Main results

* `Document.not_isPlain_of_mem_requests`: paths do not ask for schemas under plain names.
* `ApiCatalog.yields_of_extract`: what an extraction registers under plain names.
* `ApiCatalog.primitive_of_analyze`: what stands under the name of a primitive type, and what a
  reference to it leads to.
* `ApiCatalog.usurped_stringComponent`: a component may stand there.
-/

namespace ApiCatalog

namespace Document

variable {document : Document} {name : ModelName} {node : Node}

/-! ## Names that paths ask for -/

/-- The names of the schemas of media types are those that are given to media types. -/
theorem exists_mediaType_of_mem {nameOf : String → ModelName} {content : List (String × MediaType)}
    (h : (name, node) ∈ contentRequests nameOf content) : ∃ mediaType, name = nameOf mediaType := by
  obtain ⟨entry, -, hentry⟩ := List.mem_map.1 h
  cases hentry
  exact ⟨_, rfl⟩

/-- Parameters do not ask for schemas under plain names. -/
theorem not_isPlain_of_mem_parameterRequests {template : String}
    {entries : List (OrReference Parameter)}
    (h : (name, node) ∈ document.parameterRequests template entries) : ¬ Naming.IsPlain name := by
  obtain ⟨declared, hdeclared, hentry⟩ := List.mem_map.1 h
  cases hentry
  rw [schema_of_mem_declaredParameters hdeclared]
  exact Naming.not_isPlain_pathParameter _ _

/-- **Paths do not ask for schemas under plain names**, whatever their templates, methods, status
keys and media types are. -/
theorem not_isPlain_of_mem_requests (h : (name, node) ∈ document.requests) :
    ¬ Naming.IsPlain name := by
  obtain ⟨path, -, hpath⟩ := List.mem_flatMap.1 h
  rcases List.mem_append.1 hpath with hparameter | hoperations
  · exact not_isPlain_of_mem_parameterRequests hparameter
  · obtain ⟨operation, -, hoperation⟩ := List.mem_flatMap.1 hoperations
    rcases List.mem_append.1 hoperation with hparameter | hrest
    · exact not_isPlain_of_mem_parameterRequests hparameter
    · rcases List.mem_append.1 hrest with hbody | hresponses
      · obtain ⟨mediaType, rfl⟩ := exists_mediaType_of_mem hbody
        exact Naming.not_isPlain_requestBody _ _ _
      · obtain ⟨response, -, hresponse⟩ := List.mem_flatMap.1 hresponses
        obtain ⟨mediaType, rfl⟩ := exists_mediaType_of_mem hresponse
        exact Naming.not_isPlain_response _ _ _ _

end Document

/-! ## What an extraction registers -/

namespace Extraction

/-- All models under plain names are of the document. -/
def YieldsPlain (document : Document) (state : ExtractionState) : Prop :=
  document.YieldsPlain state.resolver

/-- The pass over paths registers under plain names only what the document yields. -/
theorem congruence_yields (document : Document) (cancelAt : Option Nat) :
    Congruence document cancelAt cancelAt fun _ step _ =>
      Preserves (YieldsPlain document) step := by
  refine congruence_preserves ?_ (fun _ _ h => h) ?_
  · rintro diagnostic state answer state' hyields hstep
    cases hstep
    exact hyields
  · rintro name node hrequest state ⟨⟩ state' hyields hstep
    obtain ⟨resolution, resolver, hrun, rfl⟩ := resolveBound_ok hstep
    exact hrun.yields
      (fun hplain => absurd hplain (Document.not_isPlain_of_mem_requests hrequest)) hyields

/-- The resolution of a component registers under plain names only what the document yields. -/
theorem yields_resolveComponent {context : Context} {id : String} {node : Node}
    (hfind : context.document.schemas.find? id = some node) :
    Preserves (YieldsPlain context.document) (ofResolver (resolveComponent context id node)) := by
  intro state answer state' hyields hstep
  obtain ⟨resolver, hcomponent, rfl⟩ := ofResolver_ok hstep
  rcases resolveComponent_ok hcomponent with ⟨-, -, rfl⟩ | ⟨resolution, s, -, -, -, hrun, rfl⟩
  · exact hyields
  · have hend := hrun.yields (fun _ schema hnode => .inPlace (hnode ▸ hfind)) hyields
    intro model hmodel
    rw [ResolverState.repository_memoise] at hmodel
    exact hend model hmodel

end Extraction

/-- **What an extraction registers under plain names**: primitive types, and models that a component
calls for under its id. -/
theorem yields_of_extract {document : Document} {options : Options} {state : ExtractionState}
    (h : extract document options = .ok state) : document.YieldsPlain state.resolver := by
  obtain ⟨s, hpaths, hcomponents⟩ := extract_passes h
  have hinit : Extraction.YieldsPlain document options.initialState :=
    fun _ hmodel => (nomatch hmodel)
  have hs : Extraction.YieldsPlain document s :=
    (Extraction.congruence_yields document options.cancelAt).extractPaths _ _ _ hinit hpaths
  rcases hcomponents with ⟨-, hcomponents⟩ | ⟨-, rfl⟩
  · exact Extraction.preserves_extractComponents (fun _ hentry =>
      Extraction.yields_resolveComponent (SortedMap.find?_of_mem_entries hentry)) _ _ _ hs
      hcomponents
  · exact hs

/-! ## Primitive types -/

/-- No component registers a model of its own under a name: if there is one of that id, it is
written in place and calls for common primitives only. -/
def Document.LeavesFree (document : Document) (name : ModelName) : Prop :=
  ∀ node, document.schemas.find? name = some node → ∃ schema, node = .inline schema ∧ schema.IsFlat

/-- What such a component stands for is flat. -/
theorem Document.LeavesFree.isFlat {document : Document} {name : ModelName} {schema : Schema}
    (h : document.LeavesFree name) (hstands : document.StandsFor name schema) : schema.IsFlat := by
  cases hstands with
  | inPlace hfind =>
    obtain ⟨_, hnode, hflat⟩ := h _ hfind
    cases hnode
    exact hflat
  | viaAlias hfind =>
    obtain ⟨_, hnode, -⟩ := h _ hfind
    cases hnode

/-- **What stands under the name of a primitive type** is the primitive type, or a model that the
component of that id calls for. If no component registers a model of its own there, then every
reference to the name, in a model or a binding, leads to the primitive type. -/
theorem primitive_of_analyze {document : Document} {options : Options} {analysis : Analysis}
    (h : analyze document options = .ok analysis) (kind : PrimitiveKind) :
    (∀ model, analysis.models.find? kind.canonicalName = some model → model = .primitive kind ∨
      ∃ schema, document.StandsFor kind.canonicalName schema ∧ schema.Calls model) ∧
    (document.LeavesFree kind.canonicalName →
      (∀ model, analysis.models.find? kind.canonicalName = some model → model = .primitive kind) ∧
      (analysis.Mentions kind.canonicalName →
        analysis.models.find? kind.canonicalName = some (.primitive kind))) := by
  obtain ⟨state, hextract, hend, rfl⟩ := analyze_ok h
  have hmodels : ∀ model, state.resolver.repository.find? kind.canonicalName = some model →
      model = .primitive kind ∨
        ∃ schema, document.StandsFor kind.canonicalName schema ∧ schema.Calls model := by
    intro model hfind
    obtain ⟨hmem, hname⟩ := Repository.find?_eq_some_iff.1 hfind
    have hyields := yields_of_extract hextract model hmem
      (hname ▸ Naming.isPlain_canonicalName kind)
    cases hyields with
    | primitive other => exact .inl (congrArg _ (Document.canonicalName_injective hname))
    | component hstands hcalls => exact .inr ⟨_, hname ▸ hstands, hcalls⟩
  have hfree : document.LeavesFree kind.canonicalName →
      ∀ model, state.resolver.repository.find? kind.canonicalName = some model →
        model = .primitive kind := by
    intro hleaves model hfind
    refine (hmodels model hfind).resolve_right ?_
    rintro ⟨schema, hstands, hcalls⟩
    exact (hleaves.isFlat hstands).not_calls hcalls
  refine ⟨hmodels, fun hleaves => ⟨hfree hleaves, fun hmentions => ?_⟩⟩
  have hcontains : state.resolver.repository.contains kind.canonicalName = true := by
    rcases kept_of_mentions hextract hend hmentions with hkept | ⟨hactive, -⟩ | hstray | hlost
    · exact hkept
    · cases hactive
    · obtain ⟨_, hfind⟩ := hstray.2
      obtain ⟨_, hnode, -⟩ := hleaves _ hfind
      cases hnode
    · obtain ⟨schema, _, hstands, -, -, harray, -, -⟩ := hlost
      cases (hleaves.isFlat hstands).noArray.symm.trans harray
  obtain ⟨model, hmem, hname⟩ := List.mem_map.1 (Repository.contains_iff.1 hcontains)
  have hfind : state.resolver.repository.find? kind.canonicalName = some model :=
    Repository.find?_eq_some_iff.2 ⟨hmem, hname⟩
  rw [hfree hleaves model hfind] at hfind
  exact hfind

/-- A model that refers to a name mentions it. -/
theorem mentions_of_models {analysis : Analysis} {name : ModelName}
    (h : (analysis.models.models.any fun model => model.references.contains name) = true) :
    analysis.Mentions name := by
  obtain ⟨model, hmodel, hname⟩ := List.any_eq_true.1 h
  exact .inl ⟨model, hmodel, List.contains_iff_mem.1 hname⟩

/-- A component with the name of a primitive type for its id, which calls for another primitive type
only, and an object with a property of the first. -/
def integerComponent : Document :=
  .ofSchemas [
    ("#/primitive/integer", .inline { types := .ofList [.string] }),
    ("A", .inline { types := .ofList [.object],
                    properties := [("p", .inline { types := .ofList [.integer] })] })]

/-- The property still refers to the primitive type. -/
theorem primitive_integerComponent :
    integerComponent.LeavesFree "#/primitive/integer" ∧
    ∃ analysis, analyze integerComponent {} = .ok analysis ∧
      analysis.Mentions "#/primitive/integer" ∧
      analysis.models.find? "#/primitive/integer" = some (.primitive .integer) := by
  have hfind : integerComponent.schemas.find? "#/primitive/integer" =
      some (.inline { types := .ofList [.string] }) := rfl
  have hfree : integerComponent.LeavesFree "#/primitive/integer" := fun node hnode =>
    ⟨_, Option.some.inj (hnode.symm.trans hfind), rfl, rfl, rfl, rfl, rfl⟩
  have hcheck : ((analyze integerComponent {}).toOption.any fun analysis =>
      analysis.models.models.any fun model =>
        model.references.contains "#/primitive/integer") = true := by decide +kernel
  obtain ⟨analysis, h, hmentioned⟩ := exists_of_any_toOption hcheck
  have hmentions := mentions_of_models hmentioned
  exact ⟨hfree, analysis, h, hmentions, ((primitive_of_analyze h .integer).2 hfree).2 hmentions⟩

/-- A component with the name of a primitive type for its id, which is an object, and an object with
a property of the primitive type. -/
def stringComponent : Document :=
  .ofSchemas [
    ("#/primitive/string", .inline { types := .ofList [.object] }),
    ("A", .inline { types := .ofList [.object],
                    properties := [("p", .inline { types := .ofList [.string] })] })]

/-- **A component may stand under the name of a primitive type**: the property refers to it in place
of the primitive type, and nothing is reported. -/
theorem usurped_stringComponent :
    ∃ analysis, analyze stringComponent {} = .ok analysis ∧ analysis.succeeded = true ∧
      analysis.Mentions PrimitiveKind.string.canonicalName ∧
      analysis.models.find? PrimitiveKind.string.canonicalName =
        some (.object "#/primitive/string" ∅) := by
  have hcheck : ((analyze stringComponent {}).toOption.any fun analysis =>
      analysis.succeeded &&
        ((analysis.models.models.any fun model =>
            model.references.contains PrimitiveKind.string.canonicalName) &&
          analysis.models.find? PrimitiveKind.string.canonicalName =
            some (.object "#/primitive/string" ∅))) = true := by
    decide +kernel
  obtain ⟨analysis, h, hcheck⟩ := exists_of_any_toOption hcheck
  obtain ⟨hsucceeded, hmentioned, hfind⟩ := by simpa only [Bool.and_eq_true] using hcheck
  exact ⟨analysis, h, hsucceeded, mentions_of_models hmentioned, of_decide_eq_true hfind⟩

end ApiCatalog
