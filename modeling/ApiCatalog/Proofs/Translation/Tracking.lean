import ApiCatalog.Proofs.Resolution.Outcome
import ApiCatalog.Proofs.Translation.Laws
import Mathlib.Data.List.Nodup
import Mathlib.Data.List.Pairwise

set_option autoImplicit false

/-!
# Keeping track of what is translated

While components are resolved, the models registered are those of the translations of finished
components, and of the parts that have been walked of components that are active. Names that belong
to other components are free.

## Main definitions

* `Document.follow`, `Document.translationOf`: the translation of a component, given what components
  denote.
* `Document.Owns`: a component may register a model under a name.
* `Document.Uses`: the translation of one component meets a reference to another.
* `Document.Distinct`: no name belongs to two places.
* `Document.Tracks`: what is known of a state of resolution while components are active.
* `Document.Part`: findings that are still to be met in a component.
* `Document.Effect`: what a step does that meets certain findings.

## Main results

* `Document.Effect.trans`: one step after another.
* `Document.Effect.register`: the registration of a model under a name of its own.
-/

namespace ApiCatalog

/-! ## Translations of components -/

/-- A finding that can be taken apart: a reference is well formed, and so are those in a union, as
far as they are looked at. -/
def Finding.Readable (document : Document) : Finding → Prop
  | .facet _ => True
  | .reference target => ∃ name, componentName target = .ok name
  | .union members => ∃ found, anyAdmitsNull document members = .ok found
  | .fault => True

namespace Document

section Components

variable (document : Document) (answer : String → Resolution)

/-- What references denote in a component: a reference to the component itself its id, one to
another component what that is said to denote, and any other reference nothing. -/
def follow (current target : String) : Resolution :=
  match componentName target with
  | .error _ => .failed
  | .ok none => .failed
  | .ok (some id) =>
    if id = current then .single id true
    else if (document.schemas.find? id).isSome then answer id
    else .failed

/-- The translation of a component under its own id. -/
def translationOf (id : String) : Translation :=
  match document.schemas.find? id with
  | some (.inline schema) => translateSchema document (document.follow answer id) schema id false
  | some (.reference _) => .failed
  | none => .failed

/-- What the translation of a component meets. -/
def findingsOf (id : String) : List Finding :=
  match document.schemas.find? id with
  | some (.inline schema) => schema.findings id
  | some (.reference _) => []
  | none => []

/-- A component may register a model under a name. -/
def Owns (id : String) (name : ModelName) : Prop :=
  .facet name ∈ document.findingsOf id

/-- The translation of one component meets a reference to another. -/
def Uses (id other : String) : Prop :=
  ∃ target, .reference target ∈ document.findingsOf id ∧ componentName target = .ok (some other)

/-- No name belongs to two places, be they of one component or of two, or to a place and a primitive
type. -/
def Distinct : Prop :=
  (PrimitiveKind.all.map PrimitiveKind.canonicalName ++
    document.schemaIds.flatMap fun id => namesIn (document.findingsOf id)).Nodup

/-- All references that are met can be taken apart. -/
def Readable : Prop :=
  ∀ id, ∀ finding ∈ document.findingsOf id, finding.Readable document

variable {document}

/-- The translation of a component that is written in place. -/
theorem translationOf_of_find? {answer : String → Resolution} {id : String} {schema : Schema}
    (h : document.schemas.find? id = some (.inline schema)) :
    document.translationOf answer id =
      translateSchema document (document.follow answer id) schema id false := by
  rw [translationOf, h]

/-- The findings of a component that is written in place. -/
theorem findingsOf_of_find? {id : String} {schema : Schema}
    (h : document.schemas.find? id = some (.inline schema)) :
    document.findingsOf id = schema.findings id := by
  rw [findingsOf, h]

/-- Only components have findings. -/
theorem exists_of_mem_findingsOf {id : String} {finding : Finding}
    (h : finding ∈ document.findingsOf id) :
    ∃ schema, document.schemas.find? id = some (.inline schema) := by
  unfold findingsOf at h
  split at h
  · next schema hfind => exact ⟨schema, hfind⟩
  · cases h
  · cases h

end Components

end Document

/-! ## Names -/

/-- The names among findings. -/
theorem mem_namesIn {findings : List Finding} {name : ModelName} :
    name ∈ namesIn findings ↔ .facet name ∈ findings := by
  rw [namesIn, List.mem_filterMap]
  constructor
  · rintro ⟨finding, hmem, hname⟩
    cases finding <;> simp [Finding.name?] at hname
    rwa [hname] at hmem
  · exact fun h => ⟨_, h, rfl⟩

/-- The names among findings of two parts. -/
theorem namesIn_append (first second : List Finding) :
    namesIn (first ++ second) = namesIn first ++ namesIn second :=
  List.filterMap_append

namespace Document

variable {document : Document}

/-- A schema owns the name it is resolved under. -/
theorem facet_mem_findings (schema : Schema) (hint : ModelName) :
    .facet hint ∈ schema.findings hint := by
  obtain ⟨types, oneOf, allOf, anyOf, literals, properties, required, items⟩ := schema
  rw [Schema.findings]
  exact List.mem_cons_self

/-- A component owns its id. -/
theorem owns_self {id : String} {schema : Schema}
    (h : document.schemas.find? id = some (.inline schema)) : document.Owns id id := by
  rw [Owns, findingsOf_of_find? h]
  exact facet_mem_findings schema id

/-- What has an owner belongs to a component. -/
theorem Owns.mem_schemaIds {id : String} {name : ModelName} (h : document.Owns id name) :
    id ∈ document.schemaIds := by
  obtain ⟨schema, hfind⟩ := exists_of_mem_findingsOf h
  exact SortedMap.mem_keys_of_find? hfind

namespace Distinct

variable (h : document.Distinct)

include h

/-- A name has one owner. -/
theorem owner_unique {id other : String} {name : ModelName} (hid : document.Owns id name)
    (hother : document.Owns other name) : id = other := by
  have hnodup := (List.nodup_append.1 h).2.1
  rw [List.nodup_flatMap] at hnodup
  by_contra hne
  have hsymm : Std.Symm (Function.onFun List.Disjoint fun id =>
      namesIn (document.findingsOf id)) := ⟨fun _ _ hdisjoint _ ha hb => hdisjoint hb ha⟩
  exact hnodup.2.forall hid.mem_schemaIds hother.mem_schemaIds hne (mem_namesIn.2 hid)
    (mem_namesIn.2 hother)

/-- A component owns no name twice. -/
theorem nodup_findingsOf (id : String) : (namesIn (document.findingsOf id)).Nodup := by
  by_cases hid : id ∈ document.schemaIds
  · have hnodup := (List.nodup_append.1 h).2.1
    rw [List.nodup_flatMap] at hnodup
    exact hnodup.1 id hid
  · have hnone : document.findingsOf id = [] := by
      rw [List.eq_nil_iff_forall_not_mem]
      intro finding hmem
      obtain ⟨schema, hfind⟩ := exists_of_mem_findingsOf hmem
      exact hid (SortedMap.mem_keys_of_find? hfind)
    rw [hnone]
    exact List.nodup_nil

/-- The names of primitive types have no owner. -/
theorem not_owns_primitive {id : String} (kind : PrimitiveKind) :
    ¬ document.Owns id kind.canonicalName := by
  intro howns
  have hprimitive : kind.canonicalName ∈ PrimitiveKind.all.map PrimitiveKind.canonicalName :=
    List.mem_map_of_mem (by cases kind <;> decide)
  exact (List.nodup_append.1 h).2.2 _ hprimitive _
    (List.mem_flatMap.2 ⟨id, howns.mem_schemaIds, mem_namesIn.2 howns⟩) rfl

end Distinct

/-- Primitive types have different names. -/
theorem canonicalName_injective {kind other : PrimitiveKind}
    (h : kind.canonicalName = other.canonicalName) : kind = other := by
  revert h
  cases kind <;> cases other <;> decide

end Document

/-! ## States -/

/-- A component is finished. -/
def ResolverState.Finished (state : ResolverState) (id : String) : Prop :=
  ∃ resolution, state.memo.find? id = some resolution

/-- A component that is not finished has no entry in the memo. -/
theorem ResolverState.find?_eq_none {state : ResolverState} {id : String}
    (h : ¬ state.Finished id) : state.memo.find? id = none := by
  cases hmemo : state.memo.find? id with
  | none => rfl
  | some resolution => exact absurd ⟨resolution, hmemo⟩ h

/-- Components are finished as long as the memo is the same. -/
theorem ResolverState.finished_congr {state state' : ResolverState} (h : state'.memo = state.memo)
    {id : String} : state'.Finished id ↔ state.Finished id := by
  rw [ResolverState.Finished, ResolverState.Finished, h]

namespace Document

variable (document : Document) (answer : String → Resolution)

/-- What is known of a state while components are active: finished components denote what they are
said to, and their models are registered; active ones are not finished; every model belongs to
somebody, and none to a component that is neither finished nor active. -/
structure Tracks (active : List ModelName) (state : ResolverState) : Prop where
  running : state.cancelled = false
  memo : ∀ id resolution, state.memo.find? id = some resolution →
    (document.schemas.find? id).isSome = true ∧ resolution = answer id ∧
      ∀ finding ∈ document.findingsOf id, finding.Readable document
  models : ∀ id, state.Finished id → ∀ model ∈ (document.translationOf answer id).models,
    model ∈ state.repository.models
  idle : ∀ id ∈ active, ¬ state.Finished id
  owned : ∀ model ∈ state.repository.models,
    (∃ kind, model = .primitive kind) ∨ ∃ id, document.Owns id model.name
  fresh : ∀ id, id ∉ active → ¬ state.Finished id → ∀ name, document.Owns id name →
    state.repository.contains name = false

/-- Findings of a component that are still to be met: their names are different, and free. -/
structure Part (current : String) (findings : List Finding) (state : ResolverState) : Prop where
  subset : findings ⊆ document.findingsOf current
  nodup : (namesIn findings).Nodup
  fresh : ∀ name, .facet name ∈ findings → state.repository.contains name = false

/-- What a step does that meets certain findings: it registers certain models, and those of the
components that are finished afterwards, and leaves alone the names of active components that are
not among the findings. -/
structure Effect (active : List ModelName) (findings : List Finding) (state state' : ResolverState)
    (models : List Model) : Prop where
  tracks : document.Tracks answer active state'
  built : ∀ model, model ∈ state'.repository.models ↔ model ∈ state.repository.models ∨
    model ∈ models ∨ ∃ id, state'.Finished id ∧ model ∈ (document.translationOf answer id).models
  finished : ∀ id, state.Finished id → state'.Finished id
  frame : ∀ id ∈ active, ∀ name, document.Owns id name → .facet name ∉ findings →
    state.repository.contains name = false → state'.repository.contains name = false
  readable : ∀ finding ∈ findings, finding.Readable document

variable {document} {answer} {active : List ModelName} {current : String}
  {state state₁ state₂ : ResolverState} {first second findings : List Finding}
  {models models₁ models₂ : List Model}

namespace Part

/-- What is still to be met includes what is met first. -/
theorem left (h : document.Part current (first ++ second) state) :
    document.Part current first state where
  subset := fun _ hmem => h.subset (List.mem_append.2 (.inl hmem))
  nodup := by
    have hnodup := h.nodup
    rw [namesIn_append] at hnodup
    exact (List.nodup_append.1 hnodup).1
  fresh := fun name hname => h.fresh name (List.mem_append.2 (.inl hname))

/-- What was to be met second is still to be met when the first is. -/
theorem right (h : document.Part current (first ++ second) state) (hcurrent : current ∈ active)
    (he : document.Effect answer active first state state₁ models) :
    document.Part current second state₁ where
  subset := fun _ hmem => h.subset (List.mem_append.2 (.inr hmem))
  nodup := by
    have hnodup := h.nodup
    rw [namesIn_append] at hnodup
    exact (List.nodup_append.1 hnodup).2.1
  fresh := by
    intro name hname
    have hnodup := h.nodup
    rw [namesIn_append] at hnodup
    have hmem : .facet name ∈ first ++ second := List.mem_append.2 (.inr hname)
    refine he.frame current hcurrent name (h.subset hmem) (fun hfirst => ?_) (h.fresh name hmem)
    exact (List.nodup_append.1 hnodup).2.2 _ (mem_namesIn.2 hfirst) _ (mem_namesIn.2 hname) rfl

/-- The order in which findings are listed does not matter. -/
theorem perm (h : document.Part current first state) (hperm : first.Perm second) :
    document.Part current second state where
  subset := fun _ hmem => h.subset (hperm.mem_iff.2 hmem)
  nodup := (hperm.filterMap Finding.name?).nodup_iff.1 h.nodup
  fresh := fun name hname => h.fresh name (hperm.mem_iff.2 hname)

end Part

namespace Tracks

/-- What is known of a state depends only on its models, its memo and whether it is cancelled. -/
theorem congr (h : document.Tracks answer active state)
    (hrepository : state₁.repository = state.repository) (hmemo : state₁.memo = state.memo)
    (hcancelled : state₁.cancelled = state.cancelled) : document.Tracks answer active state₁ where
  running := hcancelled.trans h.running
  memo := by
    rw [hmemo]
    exact h.memo
  models := by
    intro id hid
    rw [hrepository]
    exact h.models id ((ResolverState.finished_congr hmemo).1 hid)
  idle := fun id hid hdone => h.idle id hid ((ResolverState.finished_congr hmemo).1 hdone)
  owned := by
    rw [hrepository]
    exact h.owned
  fresh := by
    intro id hid hdone name hname
    rw [ResolverState.finished_congr hmemo] at hdone
    rw [hrepository]
    exact h.fresh id hid hdone name hname

/-- The models of finished components are registered already. -/
theorem mem_models_iff (h : document.Tracks answer active state) {model : Model} :
    model ∈ state.repository.models ↔ model ∈ state.repository.models ∨
      ∃ id, state.Finished id ∧ model ∈ (document.translationOf answer id).models := by
  refine ⟨.inl, ?_⟩
  rintro (hmodel | ⟨id, hid, hmodel⟩)
  · exact hmodel
  · exact h.models id hid model hmodel

end Tracks

namespace Effect

/-- A step that changes neither models nor the memo. -/
theorem idle (h : document.Tracks answer active state)
    (hrepository : state₁.repository = state.repository) (hmemo : state₁.memo = state.memo)
    (hcancelled : state₁.cancelled = state.cancelled) :
    document.Effect answer active [] state state₁ [] where
  tracks := h.congr hrepository hmemo hcancelled
  built := by
    intro model
    have htracks := h.congr hrepository hmemo hcancelled
    rw [htracks.mem_models_iff, hrepository]
    simp
  finished := fun _ hid => (ResolverState.finished_congr hmemo).2 hid
  frame := by
    intro id _ name _ _ hfree
    rw [hrepository]
    exact hfree
  readable := fun _ hmem => nomatch hmem

/-- No step at all. -/
theorem refl (h : document.Tracks answer active state) :
    document.Effect answer active [] state state [] :=
  idle h rfl rfl rfl

/-- A diagnostic. -/
theorem record (h : document.Tracks answer active state) (diagnostic : Diagnostic) :
    document.Effect answer active [] state (state.record diagnostic) [] :=
  idle h rfl rfl rfl

/-- **One step after another.** -/
theorem trans (h₁ : document.Effect answer active first state state₁ models₁)
    (h₂ : document.Effect answer active second state₁ state₂ models₂) :
    document.Effect answer active (first ++ second) state state₂ (models₁ ++ models₂) where
  tracks := h₂.tracks
  built := by
    intro model
    rw [h₂.built, h₁.built, List.mem_append]
    constructor
    · rintro ((hmodel | hmodel | ⟨id, hid, hmodel⟩) | hmodel | hmodel)
      · exact .inl hmodel
      · exact .inr (.inl (.inl hmodel))
      · exact .inr (.inr ⟨id, h₂.finished id hid, hmodel⟩)
      · exact .inr (.inl (.inr hmodel))
      · exact .inr (.inr hmodel)
    · rintro (hmodel | (hmodel | hmodel) | hmodel)
      · exact .inl (.inl hmodel)
      · exact .inl (.inr (.inl hmodel))
      · exact .inr (.inl hmodel)
      · exact .inr (.inr hmodel)
  finished := fun id hid => h₂.finished id (h₁.finished id hid)
  frame := by
    intro id hid name hname hnot hfree
    rw [List.mem_append, not_or] at hnot
    exact h₂.frame id hid name hname hnot.2 (h₁.frame id hid name hname hnot.1 hfree)
  readable := fun finding hmem =>
    (List.mem_append.1 hmem).elim (h₁.readable finding) (h₂.readable finding)

/-- More findings may be met than a step has met, if they can be taken apart. -/
theorem widen (h : document.Effect answer active first state state₁ models)
    (hsubset : first ⊆ second) (hreadable : ∀ finding ∈ second, finding ∈ first ∨
      finding.Readable document) :
    document.Effect answer active second state state₁ models where
  tracks := h.tracks
  built := h.built
  finished := h.finished
  frame := fun id hid name hname hnot => h.frame id hid name hname fun hmem => hnot (hsubset hmem)
  readable := fun finding hmem => (hreadable finding hmem).elim (h.readable finding) id

/-- The order in which findings are listed does not matter. -/
theorem perm (h : document.Effect answer active first state state₁ models)
    (hperm : first.Perm second) : document.Effect answer active second state state₁ models :=
  h.widen (fun _ hmem => hperm.mem_iff.1 hmem) fun _ hmem => .inl (hperm.mem_iff.2 hmem)

/-- A registration makes no name known but that of its model. -/
theorem contains_register_of_ne {model : Model} {name : ModelName} (hne : name ≠ model.name)
    (hfree : state.repository.contains name = false) :
    (state.register none model).repository.contains name = false := by
  rw [ResolverState.repository_register, Bool.eq_false_iff, ne_eq,
    Repository.contains_register, not_or]
  exact ⟨by simp [hfree], hne⟩

/-- A registration that stores a model, or finds it stored, under a name that belongs to no
component but active ones, and there only to what is met. -/
theorem stored (h : document.Tracks answer active state) {model : Model}
    (hmem : ∀ other, other ∈ (state.register none model).repository.models ↔
      other ∈ state.repository.models ∨ other = model)
    (howner : (∃ kind, model = .primitive kind) ∨ ∃ id, document.Owns id model.name)
    (hothers : ∀ id, document.Owns id model.name → id ∈ active ∧ .facet model.name ∈ findings)
    (hreadable : ∀ finding ∈ findings, finding.Readable document) :
    document.Effect answer active findings state (state.register none model) [model] where
  tracks :=
    { running := by simp [ResolverState.register, h.running]
      memo := h.memo
      models := fun id hid other hother => (hmem other).2 (.inl (h.models id hid other hother))
      idle := h.idle
      owned := by
        intro other hother
        rcases (hmem other).1 hother with hother | rfl
        · exact h.owned other hother
        · exact howner
      fresh := by
        intro id hid hdone name hname
        refine contains_register_of_ne ?_ (h.fresh id hid hdone name hname)
        rintro rfl
        exact hid (hothers id hname).1 }
  built := by
    intro other
    rw [hmem, h.mem_models_iff, List.mem_singleton]
    constructor
    · rintro ((hother | hother) | hother)
      · exact .inl (.inl hother)
      · exact .inr (.inr hother)
      · exact .inr (.inl hother)
    · rintro (hother | hother | hother)
      · exact .inl hother
      · exact .inr hother
      · exact .inl (.inr hother)
  finished := fun _ hid => hid
  frame := by
    intro id _ name hname hnot
    refine contains_register_of_ne ?_
    rintro rfl
    exact hnot (hothers id hname).2
  readable := hreadable

/-- **The registration of a model under a free name of an active component.** -/
theorem register (h : document.Tracks answer active state) (hdistinct : document.Distinct)
    (hcurrent : current ∈ active) {model : Model} (howns : document.Owns current model.name)
    (hfree : state.repository.contains model.name = false) :
    document.Effect answer active [.facet model.name] state (state.register none model)
      [model] := by
  refine stored h (fun other => ?_) (.inr ⟨current, howns⟩) (fun id hid => ?_) fun finding hf => ?_
  · rw [ResolverState.repository_register, Repository.mem_models_register]
    simp [hfree]
  · exact ⟨hdistinct.owner_unique hid howns ▸ hcurrent, List.mem_singleton_self _⟩
  · obtain rfl := List.mem_singleton.1 hf
    trivial

/-- The registration of a primitive type, whether it is known or not. A known name of a primitive
type is that of its model, since no component owns it. -/
theorem registerPrimitive (h : document.Tracks answer active state)
    (hdistinct : document.Distinct) (kind : PrimitiveKind) :
    document.Effect answer active [] state (state.register none (.primitive kind))
      [.primitive kind] := by
  refine stored h (fun other => ?_) (.inl ⟨kind, rfl⟩)
    (fun id hid => absurd hid (hdistinct.not_owns_primitive kind)) fun _ hf => nomatch hf
  rw [ResolverState.repository_register, Repository.mem_models_register]
  refine or_congr_right' fun hother => ⟨And.left, fun he => ⟨he, ?_⟩⟩
  by_contra hknown
  rw [Bool.not_eq_false, Repository.contains_iff] at hknown
  obtain ⟨known, hmodel, hname⟩ := List.mem_map.1 hknown
  rcases h.owned known hmodel with ⟨found, rfl⟩ | ⟨id, howns⟩
  · obtain rfl : found = kind := canonicalName_injective hname
    exact hother (he ▸ hmodel)
  · rw [hname] at howns
    exact hdistinct.not_owns_primitive kind howns

/-- The registration of primitive types. -/
theorem registerPrimitives (h : document.Tracks answer active state)
    (hdistinct : document.Distinct) (kinds : List PrimitiveKind) :
    document.Effect answer active [] state
      (state.registerAll none (kinds.map .primitive)) (kinds.map .primitive) := by
  induction kinds generalizing state with
  | nil => exact refl h
  | cons kind rest ih =>
    have hfirst := registerPrimitive h hdistinct kind
    exact hfirst.trans (ih hfirst.tracks)

end Effect

end Document

end ApiCatalog
