import ApiCatalog.Proofs.Resolution.Moments

set_option autoImplicit false

/-!
# Well-formed models and resolutions

Nothing empty is ever stored as a success. Properties that fail are left out of their object, and an
array whose items fail is not registered, so that both refer to some model wherever they have to;
a resolution that succeeds has a reference, also if it is answered from the memo, or for a component
that is still being resolved. A cancellation can only turn a success into a failure.

## Main definitions

* `Property.WellFormed`, `Model.WellFormed`, `Resolution.WellFormed`: what is asked of each of them.
* `ResolverState.WellFormed`: what holds of a state of the resolver.

## Main results

* `OpenRuns.wellFormed`: a stage keeps states well formed at every moment, and answers well formed.
* `OpenVisits.wellFormed`: so it does if it never answers.
* `ApiCatalog.wellFormed_of_visits`: every state that a resolver comes to is well formed.
-/

namespace ApiCatalog

/-! ## What is asked for -/

/-- A property is stored under its own name, and its value may belong to some model. -/
def Property.WellFormed (key : String) (property : Property) : Prop :=
  property.name = key ∧ property.references ≠ []

/-- An enumeration with null has the mark of that at the end of its name, the properties of an
object are well formed, and the items of an array may belong to some model. -/
def Model.WellFormed : Model → Prop
  | .primitive _ => True
  | .enumeration name _ nullable => nullable = true → ['?'] <:+ name.toList
  | .object _ properties => ∀ entry ∈ properties.entries, entry.2.WellFormed entry.1
  | .array _ items => items ≠ []
  | .composition _ _ _ => True

instance (key : String) (property : Property) : Decidable (property.WellFormed key) :=
  inferInstanceAs (Decidable (_ ∧ _))

instance : DecidablePred Model.WellFormed
  | .primitive _ => inferInstanceAs (Decidable True)
  | .enumeration name _ nullable =>
    inferInstanceAs (Decidable (nullable = true → ['?'] <:+ name.toList))
  | .object _ properties =>
    inferInstanceAs (Decidable (∀ entry ∈ properties.entries, entry.2.WellFormed entry.1))
  | .array _ items => inferInstanceAs (Decidable (items ≠ []))
  | .composition _ _ _ => inferInstanceAs (Decidable True)

/-- Neither the mark of null nor the item reference may be missing. -/
example : ¬ (Model.enumeration "Tag" ["new"] true).WellFormed ∧
    ¬ (Model.array "Shelf.tags" []).WellFormed := by decide

/-- A resolution that succeeded has references. -/
def Resolution.WellFormed (resolution : Resolution) : Prop :=
  resolution.succeeded = true → resolution.references ≠ []

/-- What holds of a state of a resolver that began with given models: models are found under their
own names, those that were given are kept and all that come after them are well formed, and so are
the resolutions of the components that are finished. -/
structure ResolverState.WellFormed (given : Repository) (state : ResolverState) : Prop where
  named : ∀ name model, state.repository.find? name = some model ↔
    model ∈ state.repository.models ∧ model.name = name
  models : Adds Model.WellFormed given.models state.repository.models
  memo : ∀ id resolution, state.memo.find? id = some resolution → resolution.WellFormed

/-! ## Models -/

/-- The name of an enumeration with null has its mark. -/
theorem Model.wellFormed_enumerationModel (hint : ModelName) (literals : List EnumLiteral) :
    (enumerationModel hint literals).WellFormed := by
  intro hnull
  refine ⟨hint.toList, ?_⟩
  rw [Naming.enumeration, hnull, if_pos rfl, String.toList_append]
  rfl

/-- What a schema calls for before its parts is well formed. -/
theorem Schema.wellFormed_flatModels {schema : Schema} {hint : ModelName} {nullable : Bool}
    {model : Model} (h : model ∈ schema.flatModels hint nullable) : model.WellFormed := by
  rcases Schema.flatModels_cases h with ⟨kind, rfl⟩ | rfl
  · trivial
  · exact Model.wellFormed_enumerationModel hint schema.literals

/-- The properties that have been resolved so far are well formed. -/
def PropertyResult.WellFormed (result : PropertyResult) : Prop :=
  ∀ entry ∈ result.properties.entries, entry.2.WellFormed entry.1

/-- Properties stay well formed, since one that fails is left out. -/
theorem PropertyResult.WellFormed.add {result : PropertyResult} {resolution : Resolution}
    (h : result.WellFormed) (hresolution : resolution.WellFormed) (required : List String)
    (name : String) : (result.add required name resolution).WellFormed := by
  unfold PropertyResult.add
  split
  · next hsucceeded =>
    rintro ⟨key, property⟩ hentry
    have hfind := OrderedMap.find?_eq_some_iff.2 hentry
    rw [OrderedMap.find?_insert] at hfind
    split at hfind
    · next hkey =>
      cases hfind
      exact ⟨hkey, hresolution hsucceeded⟩
    · exact h _ (OrderedMap.find?_eq_some_iff.1 hfind)
  · exact h

/-! ## Resolutions -/

namespace Resolution.WellFormed

/-- A failure is well formed, whatever was found before it. -/
theorem of_failed {resolution : Resolution} (h : resolution.succeeded = false) :
    resolution.WellFormed := by
  intro hsucceeded
  rw [h] at hsucceeded
  cases hsucceeded

/-- The resolution to a single model is well formed. -/
theorem single (name : ModelName) (succeeded : Bool) :
    (Resolution.single name succeeded).WellFormed :=
  fun _ => List.cons_ne_nil _ _

end Resolution.WellFormed

/-! ## States -/

namespace ResolverState.WellFormed

variable {given : Repository} {state : ResolverState}

/-- The state in which a resolver begins is well formed. -/
theorem initial (given : Repository) : ResolverState.WellFormed given { repository := given } where
  named := fun _ _ => Repository.find?_eq_some_iff
  models := .refl _ _
  memo := fun _ _ hmemo => nomatch hmemo

/-- A well-formed model may be registered. -/
theorem register {model : Model} (h : state.WellFormed given) (hmodel : model.WellFormed)
    (cancelAt : Option Nat) : (state.register cancelAt model).WellFormed given where
  named := fun _ _ => Repository.find?_eq_some_iff
  models := h.models.trans (.register hmodel _)
  memo := h.memo

/-- A well-formed resolution may be kept. -/
theorem memoise {resolution : Resolution} (h : state.WellFormed given)
    (hresolution : resolution.WellFormed) (id : ModelName) :
    (state.memoise id resolution).WellFormed given where
  named := fun _ _ => Repository.find?_eq_some_iff
  models := by
    rw [ResolverState.repository_memoise]
    exact h.models
  memo := by
    intro other found hfind
    rcases ResolverState.find?_memoise_cases hfind with hold | ⟨-, rfl⟩
    · exact h.memo other found hold
    · exact hresolution

/-- Neither diagnostics nor the wish to stop matter. -/
theorem of_eq {state' : ResolverState} (h : state.WellFormed given)
    (hrepository : state'.repository = state.repository) (hmemo : state'.memo = state.memo) :
    state'.WellFormed given :=
  ⟨hrepository ▸ h.named, hrepository ▸ h.models, hmemo ▸ h.memo⟩

/-- All models are well formed if those are that were given. -/
theorem models_wellFormed (h : state.WellFormed given)
    (hgiven : ∀ model ∈ given.models, model.WellFormed) :
    ∀ model ∈ state.repository.models, model.WellFormed := by
  obtain ⟨added, hmodels, hadded⟩ := h.models
  intro model hmodel
  rw [hmodels] at hmodel
  exact (List.mem_append.1 hmodel).elim (hgiven model) (hadded model)

end ResolverState.WellFormed

/-! ## Moments -/

/-- At every moment of a trail, and at its end, the state of the resolver is well formed. -/
abbrev WellFormedThroughout (given : Repository) (trail : List OpenState) (ended : OpenState) :
    Prop :=
  Throughout (ResolverState.WellFormed given) trail ended

namespace WellFormedThroughout

variable {given : Repository} {begun ended : OpenState} {trail : List OpenState}

/-- A cancellation. -/
theorem cancel (h : begun.resolver.WellFormed given) :
    WellFormedThroughout given [begun.cancel] begun.cancel :=
  .change (h.of_eq rfl rfl)

/-- A well-formed model is registered. -/
theorem register {model : Model} (h : WellFormedThroughout given trail ended)
    (hmodel : model.WellFormed) (cancelAt : Option Nat) :
    WellFormedThroughout given (trail ++ [ended.register cancelAt model])
      (ended.register cancelAt model) :=
  h.append (.change (h.last.register hmodel cancelAt))

/-- What a schema calls for before its parts is registered. -/
theorem flatModels {schema : Schema} {hint : ModelName} {nullable : Bool}
    (h : begun.resolver.WellFormed given) (cancelAt : Option Nat) :
    WellFormedThroughout given (begun.registrations cancelAt (schema.flatModels hint nullable))
      (begun.registerAll cancelAt (schema.flatModels hint nullable)) :=
  .registerAll (fun _ hmodel hstate =>
    hstate.register (Schema.wellFormed_flatModels hmodel) cancelAt) h

/-- A component is entered and left. -/
theorem component {id : ModelName} {resolution : Resolution}
    (hbegun : begun.resolver.WellFormed given) (h : WellFormedThroughout given trail ended)
    (hresolution : resolution.WellFormed) :
    WellFormedThroughout given
      (begun.enter id :: trail ++ [ended.leave id, (ended.leave id).memoise id resolution])
      ((ended.leave id).memoise id resolution) :=
  Throughout.component hbegun h (h.last.memoise hresolution id)

end WellFormedThroughout

/-! ## Stages -/

/-- The properties that a stage goes on from are well formed. -/
def Stage.WellFormed {kind : StageKind} : Stage kind → Prop
  | .atNode _ _ _ => True
  | .atSchema _ _ _ => True
  | .atMembers _ _ _ _ _ => True
  | .atProperties _ _ _ result => result.WellFormed
  | .atObject _ _ => True
  | .atArray _ _ => True

/-- What a stage answers is well formed. -/
def StageKind.WellFormed : (kind : StageKind) → kind.Answer → Prop
  | .resolution, answer => Resolution.WellFormed answer
  | .members, _ => True
  | .properties, answer => PropertyResult.WellFormed answer
  | .facet, _ => True

section Stages

variable {context : Context} {kind : StageKind} {stage : Stage kind} {given : Repository}
  {begun ended moment : OpenState} {answer : kind.Answer} {trail : List OpenState}

/-- **A stage keeps states well formed at every moment, and what it answers is well formed.**

**Proof sketch.** Induction on the run. A schema with types has a reference for each of them, and a
composition has its own; a component that is in progress answers with its id, and one that is
finished from the memo. What is cancelled answers with a failure. -/
theorem OpenRuns.wellFormed (h : OpenRuns context stage begun answer trail ended)
    (hstage : stage.WellFormed) (hbegun : begun.resolver.WellFormed given) :
    kind.WellFormed answer ∧ WellFormedThroughout given trail ended := by
  induction h with
  | cancelBefore _ ih =>
    obtain ⟨hanswer, htrail⟩ := ih hstage (hbegun.of_eq rfl rfl)
    exact ⟨hanswer, (WellFormedThroughout.cancel hbegun).append htrail⟩
  | cancelAfter _ ih =>
    obtain ⟨hanswer, htrail⟩ := ih hstage hbegun
    exact ⟨hanswer, htrail.append (WellFormedThroughout.cancel htrail.last)⟩
  | cancelled => exact ⟨.of_failed rfl, .nothing hbegun⟩
  | inline _ _ ih => exact ih trivial hbegun
  | refused | missing | untyped => exact ⟨.of_failed rfl, .change (hbegun.of_eq rfl rfl)⟩
  | finished _ _ hmemo => exact ⟨hbegun.memo _ _ hmemo, .nothing hbegun⟩
  | busy => exact ⟨.single _ _, .nothing hbegun⟩
  | entered _ _ _ _ _ _ ih =>
    obtain ⟨hanswer, htrail⟩ := ih trivial hbegun
    exact ⟨hanswer, .component hbegun htrail hanswer⟩
  | composed _ _ _ ih =>
    obtain ⟨-, htrail⟩ := ih trivial hbegun
    refine ⟨.single _ _, htrail.register ?_ _⟩
    trivial
  | abandoned _ _ _ ih => exact ⟨.single _ _, (ih trivial hbegun).2⟩
  | typed _ htypes _ _ ihObject ihArray =>
    obtain ⟨-, hobject⟩ := ihObject trivial (WellFormedThroughout.flatModels hbegun _).last
    obtain ⟨-, harray⟩ := ihArray trivial hobject.last
    refine ⟨fun _ => Schema.references_ne_nil htypes _ _, ?_⟩
    exact (WellFormedThroughout.flatModels hbegun _).append (hobject.append harray)
  | allMembers | membersLeft | noObject | knownObject | noArray | knownArray =>
    exact ⟨trivial, .nothing hbegun⟩
  | nextMember _ _ _ ihFirst ihRest =>
    obtain ⟨-, hfirst⟩ := ihFirst trivial hbegun
    obtain ⟨-, hrest⟩ := ihRest trivial hfirst.last
    exact ⟨trivial, hfirst.append hrest⟩
  | allProperties => exact ⟨hstage, .nothing hbegun⟩
  | nextProperty _ _ ihFirst ihRest =>
    obtain ⟨hresolution, hfirst⟩ := ihFirst trivial hbegun
    obtain ⟨hanswer, hrest⟩ := ihRest (hstage.add hresolution _ _) hfirst.last
    exact ⟨hanswer, hfirst.append hrest⟩
  -- the properties begin with none, and those that fail are left out
  | lostObject _ _ _ _ ih =>
    exact ⟨trivial, (ih (fun _ hentry => nomatch hentry) hbegun).2⟩
  | object _ _ _ _ ih =>
    obtain ⟨hproperties, htrail⟩ := ih (fun _ hentry => nomatch hentry) hbegun
    refine ⟨trivial, htrail.register ?_ _⟩
    exact hproperties
  | noItems | anyItems => exact ⟨trivial, .change (hbegun.of_eq rfl rfl)⟩
  | lostArray _ _ _ _ _ ih => exact ⟨trivial, (ih trivial hbegun).2⟩
  -- nothing is registered for items that fail
  | array _ _ _ _ hsucceeded ih =>
    obtain ⟨hitems, htrail⟩ := ih trivial hbegun
    refine ⟨trivial, htrail.register ?_ _⟩
    exact hitems hsucceeded

/-- **A stage comes to well-formed states only**, whether or not it will ever answer.

**Proof sketch.** Induction on the way to the state: the parts that have answered leave well-formed
states, from which the part at hand begins. -/
theorem OpenVisits.wellFormed (h : OpenVisits context stage begun moment)
    (hstage : stage.WellFormed) (hbegun : begun.resolver.WellFormed given) :
    moment.resolver.WellFormed given := by
  induction h with
  | start => exact hbegun
  | answers hrun hmoment => exact (hrun.wellFormed hstage hbegun).2 _ hmoment
  | cancel _ ih => exact ih hstage (hbegun.of_eq rfl rfl)
  | inline _ _ ih | entered _ _ _ _ _ _ ih | members _ _ _ ih | member _ _ ih | items _ _ _ _ ih
  | property _ ih => exact ih trivial hbegun
  | models _ _ hmoment =>
    exact WellFormedThroughout.flatModels hbegun _ _ (List.mem_append_left _ hmoment)
  | object _ _ _ ih =>
    exact ih trivial (WellFormedThroughout.flatModels hbegun _).last
  | array _ _ hobject _ ih =>
    have hmiddle := hobject.wellFormed trivial (WellFormedThroughout.flatModels hbegun _).last
    exact ih trivial hmiddle.2.last
  | otherMembers _ hfirst _ ih => exact ih trivial (hfirst.wellFormed trivial hbegun).2.last
  | otherProperties hfirst _ ih =>
    obtain ⟨hresolution, htrail⟩ := hfirst.wellFormed trivial hbegun
    exact ih (hstage.add hresolution _ _) htrail.last
  | properties _ _ _ ih => exact ih (fun _ hentry => nomatch hentry) hbegun

end Stages

/-! ## Calls -/

section Calls

variable {context : Context} {given : Repository} {begun ended moment : OpenState}

/-- A call that is answered passes through well-formed states. -/
theorem Call.Performs.wellFormed {call : Call} {answer : Option Resolution}
    {trail : List OpenState} (h : call.Performs context begun answer trail ended)
    (hbegun : begun.resolver.WellFormed given) : WellFormedThroughout given trail ended := by
  cases h with
  | schema hrun => exact (hrun.wellFormed trivial hbegun).2
  | known => exact .nothing hbegun
  | component _ _ hrun =>
    obtain ⟨hanswer, htrail⟩ := hrun.wellFormed trivial hbegun
    exact .component hbegun htrail hanswer
  | record | cancel => exact .change (hbegun.of_eq rfl rfl)

/-- A call comes to well-formed states only. -/
theorem Call.Visits.wellFormed {call : Call} (h : call.Visits context begun moment)
    (hbegun : begun.resolver.WellFormed given) : moment.resolver.WellFormed given := by
  cases h with
  | answers hcall hmoment => exact hcall.wellFormed hbegun _ hmoment
  | schema hvisits | component _ _ hvisits => exact hvisits.wellFormed trivial hbegun

/-- Calls lead to well-formed states. -/
theorem OpenState.wellFormed_of_calls
    (h : Relation.ReflTransGen (OpenState.Leads context) begun ended)
    (hbegun : begun.resolver.WellFormed given) : ended.resolver.WellFormed given := by
  induction h with
  | refl => exact hbegun
  | tail _ hcall ih =>
    obtain ⟨call, answer, trail, hcall⟩ := hcall
    exact (hcall.wellFormed ih).last

/-- **Every state that a resolver comes to is well formed**, between calls and in the midst of them,
wherever they are interrupted, and also in one that is never answered:

* every model is found under its own name;
* the models that the resolver began with are kept, and all others are well formed: the properties
  of an object stand under their own names and refer to some model, an array has an item reference,
  and an enumeration with null has a name that ends in `?`;
* a resolution that succeeded has a reference, whether it is in the memo or answered by any stage
  from there on, interrupted or not, whatever components are in progress.

What a request leaves behind is such a state, also if it ends the extraction.

**Proof sketch.** The state at the beginning is well formed, each call keeps that, since every stage
does (`OpenRuns.wellFormed`), and so does the part of a call that is still to be answered
(`OpenVisits.wellFormed`). -/
theorem wellFormed_of_visits (h : OpenState.Visits context ⟨{ repository := given }, ∅⟩ moment) :
    moment.resolver.WellFormed given ∧
    ((∀ model ∈ given.models, model.WellFormed) →
      ∀ model ∈ moment.resolver.repository.models, model.WellFormed) ∧
    (∀ (stage : Stage .resolution) (inProgress : Finset ModelName) (resolution : Resolution)
      (trail : List OpenState) (ended : OpenState),
      OpenRuns context stage ⟨moment.resolver, inProgress⟩ resolution trail ended →
      resolution.WellFormed) ∧
    ∀ request : Request,
      ((request.perform context).left moment.resolver).WellFormed given := by
  have hmoment : moment.resolver.WellFormed given := by
    obtain ⟨middle, hcalls, hlast⟩ := h
    have hmiddle := OpenState.wellFormed_of_calls hcalls (.initial given)
    rcases hlast with rfl | ⟨call, hvisits⟩
    · exact hmiddle
    · exact hvisits.wellFormed hmiddle
  refine ⟨hmoment, hmoment.models_wellFormed,
    fun stage inProgress resolution trail ended hrun => ?_, fun request => ?_⟩
  · have hstage : stage.WellFormed := by cases stage <;> trivial
    exact (hrun.wellFormed hstage hmoment).1
  · obtain ⟨inProgress, hvisits⟩ := request.visits_left context moment.resolver
    exact hvisits.wellFormed hmoment

end Calls

/-- An object with an owner who has a tag, and a list of tags; a tag is a text or null. -/
def shelf : Document :=
  let tag : Node := .reference "#/components/schemas/Tag"
  .ofSchemas [
    ("Shelf", .inline
      { types := .ofList [.object]
        properties := [
          ("owner", .inline { types := .ofList [.object], properties := [("tag", tag)] }),
          ("tags", .inline { types := .ofList [.array], items := some (.each tag) })] }),
    ("Tag", .inline { types := .ofList [.string], literals := [.text "new", .null] })]

/-- The extraction is cancelled when the list of tags is registered, so that the shelf is lost. What
is left is well formed, and so is all that is resolved after that. -/
theorem wellFormed_shelf :
    let context : Context := ⟨shelf, some 4⟩
    let request : Request := .schema (.reference "#/components/schemas/Shelf") "h"
    ∃ state, request.perform context {} = .ok (some ⟨["Shelf"], false⟩) state ∧
      state.cancelled = true ∧
      state.repository.models = [.primitive .string, .enumeration "Tag?" ["new"] true,
        .object "Shelf.owner"
          (.ofList [("tag", ⟨"tag", ["#/primitive/string", "Tag?"], .optional⟩)]),
        .array "Shelf.tags" ["#/primitive/string", "Tag?"]] ∧
      state.memo.entries = [("Tag", ⟨["#/primitive/string", "Tag?"], true⟩)] ∧
      state.WellFormed ∅ ∧ (∀ model ∈ state.repository.models, model.WellFormed) ∧
      ((request.perform context).left state).WellFormed ∅ := by
  intro context request
  have hcheck : (request.perform context).answersWith {} (fun answer state =>
      answer = some ⟨["Shelf"], false⟩ && state.cancelled &&
      state.repository.models = [.primitive .string, .enumeration "Tag?" ["new"] true,
        .object "Shelf.owner"
          (.ofList [("tag", ⟨"tag", ["#/primitive/string", "Tag?"], .optional⟩)]),
        .array "Shelf.tags" ["#/primitive/string", "Tag?"]] &&
      state.memo.entries = [("Tag", ⟨["#/primitive/string", "Tag?"], true⟩)]) = true := by
    decide +kernel
  obtain ⟨answer, state, hperform, hstate⟩ := Resolver.exists_of_answersWith hcheck
  simp only [Bool.and_eq_true, decide_eq_true_eq] at hstate
  obtain ⟨⟨⟨rfl, hcancelled⟩, hmodels⟩, hmemo⟩ := hstate
  obtain ⟨trail, hcall⟩ := Request.performs hperform
  have hvisits : OpenState.Visits context ⟨{ repository := ∅ }, ∅⟩ ⟨state, ∅⟩ :=
    ⟨⟨state, ∅⟩, .single ⟨_, _, trail, hcall⟩, .inl rfl⟩
  obtain ⟨hwell, hall, -, hrequests⟩ := wellFormed_of_visits hvisits
  have hgiven : ∀ model ∈ (∅ : Repository).models, model.WellFormed :=
    fun _ hmodel => absurd hmodel List.not_mem_nil
  exact ⟨state, hperform, hcancelled, hmodels, hmemo, hwell, hall hgiven, hrequests request⟩

end ApiCatalog
