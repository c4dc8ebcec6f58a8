import ApiCatalog.Proofs.Resolution.Order

set_option autoImplicit false

/-!
# References to components that are being resolved

Such a reference is answered with the id of the component, as a promise that a model will be
registered under it. A component that a reference has led to keeps the promise, unless it is an
array whose items fail. Only a component that is begun from outside may be a stray: an alias, whose
schema is resolved under the id of another component.

## Main definitions

* `Schema.HasParts`: a schema that is resolved by its parts, if only by some of them.
* `Document.Kept`: a name is registered, or may still be, or is one of the exceptions.
* `Document.Keeps`: all models and finished components refer to names that are kept.

## Main results

* `ApiCatalog.Runs.registers`: a schema with parts is registered under its hint, unless it is an
  array whose items fail.
* `ApiCatalog.Runs.keeps`: a run keeps promises, and what it answers refers to names that are kept.
-/

namespace ApiCatalog

/-! ## Schemas with parts -/

/-- A schema that is resolved by parts: it has a combinator, or it calls for an object or an
array. -/
def Schema.HasParts (schema : Schema) : Prop :=
  schema.composition? ≠ none ∨ schema.types.contains .object = true ∨
    schema.types.contains .array = true

/-- A stage that may meet references. -/
def Stage.HasParts {kind : StageKind} : Stage kind → Prop
  | .atNode (.reference _) _ _ => True
  | .atNode (.inline schema) _ _ => schema.HasParts
  | .atSchema schema _ _ => schema.HasParts
  | .atMembers _ _ _ _ _ => True
  | .atProperties _ _ _ _ => True
  | .atObject schema _ => schema.types.contains .object = true
  | .atArray schema _ => schema.types.contains .array = true

/-- **A schema with parts is registered under its hint**, or it is an array whose items fail.

**Proof sketch.** A composition is registered last, an object is registered unless its name is
taken, and an array only if its items are resolved. -/
theorem Runs.registers {context : Context} {active : List ModelName} {schema : Schema}
    {hint : ModelName} {nullable : Bool} {state state' : ResolverState} {resolution : Resolution}
    (h : Runs context active (.atSchema schema hint nullable) state resolution state')
    (hend : state'.cancelled = false) (hparts : schema.HasParts) :
    state'.repository.contains hint = true ∨
      (schema.composition? = none ∧ schema.types.contains .object = false ∧
        schema.types.contains .array = true ∧ resolution.succeeded = false) := by
  cases h with
  | composed => exact .inl Repository.contains_register_self
  | abandoned _ _ hmembers =>
    rw [hmembers.cancelled_of_none] at hend
    cases hend
  | untyped hshape htypes =>
    rcases hparts with hparts | hparts | hparts
    · exact absurd hshape hparts
    all_goals
      simp only [TypeSet.isEmpty, List.isEmpty_iff, TypeSet.toList,
        List.filter_eq_nil_iff] at htypes
      exact absurd hparts (htypes _ (by decide))
  | typed hshape _ hobject harray =>
    cases hobject with
    | knownObject _ hknown => exact .inl (harray.grows.contains hknown)
    | lostObject _ _ _ hcancelled =>
      rw [harray.grows.cancelled hcancelled] at hend
      cases hend
    | object =>
      exact .inl (harray.grows.contains Repository.contains_register_self)
    | noObject hcalled =>
      cases harray with
      | noArray harray => simp [Schema.HasParts, hshape, hcalled, harray] at hparts
      | knownArray _ hknown => exact .inl hknown
      | array => exact .inl Repository.contains_register_self
      | noItems harray | anyItems harray | lostArray harray =>
        exact .inr ⟨hshape, hcalled, harray, by simp⟩

/-! ## Promises -/

namespace Document

variable (document : Document) (strays : String → Prop)

/-- A component whose schema has parts. -/
def Carries (id : String) : Prop :=
  ∃ schema, document.StandsFor id schema ∧ schema.HasParts

/-- A component that is an array, and was not resolved. -/
def IsLostArray (state : ResolverState) (id : String) : Prop :=
  ∃ schema resolution, document.StandsFor id schema ∧
    schema.composition? = none ∧ schema.types.contains .object = false ∧
    schema.types.contains .array = true ∧ state.memo.find? id = some resolution ∧
    resolution.succeeded = false

/-- A name is registered, or it may still be because its component is active, or it is the id of an
array that was not resolved, or a stray. -/
def Kept (active : List ModelName) (state : ResolverState) (name : ModelName) : Prop :=
  state.repository.contains name = true ∨ (name ∈ active ∧ document.Carries name) ∨
    strays name ∨ document.IsLostArray state name

/-- All models, and all components that were resolved with success, refer to names that are
kept. -/
structure Keeps (active : List ModelName) (state : ResolverState) : Prop where
  models : ∀ model ∈ state.repository.models, ∀ name ∈ model.references,
    document.Kept strays active state name
  memo : ∀ id resolution, state.memo.find? id = some resolution →
    resolution.Refers (document.Kept strays active state)

variable {document} {strays} {active : List ModelName} {state : ResolverState}
  {cancelAt : Option Nat}

/-- A name stays kept. -/
theorem Kept.mono {state' : ResolverState} {name : ModelName}
    (h : document.Kept strays active state name) (hgrows : state.Grows state') :
    document.Kept strays active state' name := by
  rcases h with h | h | h | ⟨schema, resolution, hstands, hshape, hobject, harray, hmemo, hfailed⟩
  · exact .inl (hgrows.contains h)
  · exact .inr (.inl h)
  · exact .inr (.inr (.inl h))
  · exact .inr (.inr (.inr ⟨schema, resolution, hstands, hshape, hobject, harray,
      hgrows.memo _ _ hmemo, hfailed⟩))

/-- A name that is kept while some components are active is kept while more are. -/
theorem Kept.weaken {id name : ModelName} (h : document.Kept strays active state name) :
    document.Kept strays (id :: active) state name :=
  h.imp_right (Or.imp_left fun h => ⟨List.mem_cons_of_mem _ h.1, h.2⟩)

namespace Keeps

/-- A model that refers to names that are kept may be registered. -/
theorem register {model : Model} (h : document.Keeps strays active state)
    (hmodel : ∀ name ∈ model.references, document.Kept strays active state name) :
    document.Keeps strays active (state.register cancelAt model) where
  models := by
    intro other hother name hname
    refine Kept.mono ?_ (.register cancelAt state model)
    rcases Repository.mem_models_register.1 hother with hother | ⟨rfl, -⟩
    · exact h.models other hother name hname
    · exact hmodel name hname
  memo := fun id resolution hmemo => (h.memo id resolution hmemo).mono
    fun _ hkept => hkept.mono (.register _ _ _)

/-- Models that refer to nothing may be registered. -/
theorem registerAll {models : List Model} (h : document.Keeps strays active state)
    (hmodels : ∀ model ∈ models, model.references = []) :
    document.Keeps strays active (state.registerAll cancelAt models) :=
  ResolverState.maintains_registerAll (document.Keeps strays active)
    (fun model hmodel hkeeps => hkeeps.register (by simp [hmodels model hmodel])) h

/-- A diagnostic breaks no promise. -/
theorem record (h : document.Keeps strays active state) (diagnostic : Diagnostic) :
    document.Keeps strays active (state.record diagnostic) :=
  ⟨h.models, h.memo⟩

/-- No promise is broken when one more component becomes active. -/
theorem weaken (h : document.Keeps strays active state) (id : ModelName) :
    document.Keeps strays (id :: active) state where
  models := fun model hmodel name hname => (h.models model hmodel name hname).weaken
  memo := fun id resolution hmemo => (h.memo id resolution hmemo).mono fun _ => Kept.weaken

/-- **The promise of a component is settled when it is finished**: unless it is a stray, it has no
parts, or it is registered, or it is an array that was not resolved.

**Proof sketch.** A name that was kept because the component was active is that of the component;
if that is an array whose items failed, the memo now says so. -/
theorem settle {id : ModelName} {resolution : Resolution}
    (h : document.Keeps strays (id :: active) state) (hcancelled : state.cancelled = false)
    (hnew : state.memo.find? id = none)
    (hr : resolution.Refers (document.Kept strays (id :: active) state))
    (hsettled : strays id ∨ (document.Carries id →
      state.repository.contains id = true ∨ ∃ schema,
        document.StandsFor id schema ∧ schema.composition? = none ∧
        schema.types.contains .object = false ∧ schema.types.contains .array = true ∧
        resolution.succeeded = false)) :
    document.Keeps strays active (state.memoise id resolution) ∧
      resolution.Refers (document.Kept strays active (state.memoise id resolution)) := by
  have hgrows : state.Grows (state.memoise id resolution) :=
    ResolverState.Grows.memoise (.refl state) hnew
  have hkept : ∀ name, document.Kept strays (id :: active) state name →
      document.Kept strays active (state.memoise id resolution) name := by
    intro name hname
    rcases hname with hname | ⟨hactive, hcarries⟩ | hname
    · exact Kept.mono (.inl hname) hgrows
    · rcases List.mem_cons.1 hactive with rfl | hactive
      · rcases hsettled with hstray | hsettled
        · exact .inr (.inr (.inl hstray))
        · rcases hsettled hcarries with hknown | ⟨schema, hstands, hshape, hobject, harray, hfailed⟩
          · exact Kept.mono (.inl hknown) hgrows
          · refine .inr (.inr (.inr ⟨schema, resolution, hstands, hshape, hobject, harray, ?_,
              hfailed⟩))
            rw [ResolverState.find?_memoise hcancelled, if_pos rfl]
      · exact .inr (.inl ⟨hactive, hcarries⟩)
    · exact Kept.mono (.inr (.inr hname)) hgrows
  refine ⟨⟨fun model hmodel name hname => ?_, fun other found hfound => ?_⟩, hr.mono hkept⟩
  · rw [ResolverState.repository_memoise] at hmodel
    exact hkept name (h.models model hmodel name hname)
  · rcases ResolverState.find?_memoise_cases hfound with hfound | ⟨-, rfl⟩
    · exact (h.memo other found hfound).mono hkept
    · exact hr.mono hkept

end Keeps

end Document

/-- **A run keeps promises**, and what it answers refers to names that are kept.

**Proof sketch.** Induction on the run. A reference is answered with the id of an active component
only in a stage that has parts, hence from a component that is a stray or has parts itself. When
a component has been walked, its promise is settled: `Runs.registers` says what became of it. -/
theorem Runs.keeps {context : Context} {strays : String → Prop} {kind : StageKind}
    {active : List ModelName} {stage : Stage kind} {state state' : ResolverState}
    {answer : kind.Answer}
    (h : Runs context active stage state answer state') (hend : state'.cancelled = false)
    (hactive : stage.HasParts → ∀ id ∈ active,
      strays id ∨ context.document.Carries id)
    (hgathered : stage.Gathered (context.document.Kept strays active state))
    (hkeeps : context.document.Keeps strays active state) :
    context.document.Keeps strays active state' ∧
      stage.Answers (context.document.Kept strays active state') answer := by
  induction h with
  | cancelled => exact ⟨hkeeps, Resolution.refers_failed⟩
  | inline _ _ ih => exact ih hend hactive trivial hkeeps
  | refused | missing | untyped => exact ⟨hkeeps.record _, Resolution.refers_failed⟩
  | finished _ _ hmemo => exact ⟨hkeeps, hkeeps.memo _ _ hmemo⟩
  | busy _ _ _ hid =>
    refine ⟨hkeeps, fun _ name hname => ?_⟩
    obtain rfl := List.mem_singleton.1 hname
    rcases hactive trivial _ hid with hstray | hcarries
    · exact .inr (.inr (.inl hstray))
    · exact .inr (.inl ⟨hid, hcarries⟩)
  | @entered active target hint nullable id schema state resolution state' _ hname hmemo hid hfound
    hschema ih =>
    rw [ResolverState.cancelled_memoise] at hend
    have hstands := standsFor_of_findSchema hname hfound
    have hentered : schema.HasParts → ∀ other ∈ id :: active,
        strays other ∨ context.document.Carries other := by
      intro hparts other hother
      rcases List.mem_cons.1 hother with rfl | hother
      · exact .inr ⟨schema, hstands, hparts⟩
      · exact hactive trivial other hother
    obtain ⟨hkeeps', hanswers⟩ := ih hend hentered trivial (hkeeps.weaken id)
    refine hkeeps'.settle hend (hschema.memo_active List.mem_cons_self hmemo) hanswers
      (.inr fun hcarries => ?_)
    obtain ⟨schema', hstands', hparts⟩ := hcarries
    rw [← hstands.unique hstands'] at hparts
    exact (hschema.registers hend hparts).imp_right fun h => ⟨schema, hstands, h⟩
  | composed hshape _ _ ih =>
    have hparts : Schema.HasParts _ := .inl (by rw [hshape]; exact Option.some_ne_none _)
    obtain ⟨hkeeps', hanswers⟩ := ih ((ResolverState.Grows.register _ _ _).not_cancelled hend)
      (fun _ => hactive hparts) MemberResult.refers_empty hkeeps
    refine ⟨hkeeps'.register (hanswers _ rfl), fun _ name hname => ?_⟩
    obtain rfl := List.mem_singleton.1 hname
    exact .inl Repository.contains_register_self
  | abandoned _ _ hmembers =>
    rw [hmembers.cancelled_of_none] at hend
    cases hend
  | typed _ _ hobject harray ihObject ihArray =>
    obtain ⟨hkeeps₁, hanswers₁⟩ := ihObject (harray.grows.not_cancelled hend)
      (fun hcalled => hactive (.inr (.inl hcalled))) trivial
      (hkeeps.registerAll fun _ => references_of_mem_flatModels)
    obtain ⟨hkeeps₂, hanswers₂⟩ := ihArray hend
      (fun hcalled => hactive (.inr (.inr hcalled))) trivial hkeeps₁
    refine ⟨hkeeps₂, answers_typed (fun model hmodel => .inl ?_) ?_ hanswers₂⟩
    · exact (hobject.grows.trans harray.grows).contains (contains_registerAll hmodel)
    · exact fun hdone hcalled => (hanswers₁ hdone hcalled).mono harray.grows
  | allMembers =>
    refine ⟨hkeeps, fun members hmembers => ?_⟩
    cases hmembers
    exact hgathered
  | membersLeft => exact ⟨hkeeps, fun _ h => nomatch h⟩
  | nextMember _ hfirst hrest ihFirst ihRest =>
    obtain ⟨hkeeps₁, hanswers₁⟩ := ihFirst (hrest.grows.not_cancelled hend)
      (fun _ => hactive trivial) trivial hkeeps
    exact ihRest hend (fun _ => hactive trivial)
      ((hgathered.mono fun _ h => h.mono hfirst.grows).add hanswers₁) hkeeps₁
  | allProperties => exact ⟨hkeeps, hgathered⟩
  | nextProperty hfirst hrest ihFirst ihRest =>
    obtain ⟨hkeeps₁, hanswers₁⟩ := ihFirst (hrest.grows.not_cancelled hend)
      (fun _ => hactive trivial) trivial hkeeps
    exact ihRest hend (fun _ => hactive trivial)
      ((hgathered.mono fun _ h => h.mono hfirst.grows).add hanswers₁ _ _) hkeeps₁
  | noObject hcalled => exact ⟨hkeeps, fun _ h => by simp [hcalled] at h⟩
  | knownObject _ hknown => exact ⟨hkeeps, fun _ _ => .inl hknown⟩
  | lostObject hcalled _ _ _ ih =>
    exact ⟨(ih hend (fun _ => hactive hcalled) PropertyResult.refers_empty hkeeps).1,
      fun h => nomatch h⟩
  | object hcalled _ _ hcancelled ih =>
    obtain ⟨hkeeps', hanswers⟩ := ih hcancelled (fun _ => hactive hcalled)
      PropertyResult.refers_empty hkeeps
    refine ⟨hkeeps'.register fun name hname => ?_, fun _ _ =>
      .inl Repository.contains_register_self⟩
    obtain ⟨property, hproperty, hname⟩ := List.mem_flatMap.1 hname
    exact hanswers property hproperty name hname
  | noArray hcalled => exact ⟨hkeeps, fun _ h => by simp [hcalled] at h⟩
  | knownArray _ hknown => exact ⟨hkeeps, fun _ _ => .inl hknown⟩
  | noItems | anyItems => exact ⟨hkeeps.record _, fun h => nomatch h⟩
  | lostArray hcalled _ _ _ _ ih =>
    exact ⟨(ih hend (fun _ => hactive hcalled) trivial hkeeps).1, fun h => nomatch h⟩
  | array hcalled _ _ _ hsucceeded ih =>
    obtain ⟨hkeeps', hanswers⟩ := ih
      ((ResolverState.Grows.register _ _ _).not_cancelled hend) (fun _ => hactive hcalled) trivial
      hkeeps
    exact ⟨hkeeps'.register (hanswers hsucceeded), fun _ _ =>
      .inl Repository.contains_register_self⟩

end ApiCatalog
