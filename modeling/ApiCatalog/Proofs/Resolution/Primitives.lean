import ApiCatalog.Proofs.Resolution.Names
import ApiCatalog.Proofs.Resolution.Origins

set_option autoImplicit false

/-!
# Models under plain names

All models share one space of names, in which the primitive types have fixed ones. Whatever hint a
schema is resolved under, its parts have names with marks, so that a model under a plain name is a
primitive type or was resolved under the name itself, as the component of that id.

## Main definitions

* `Schema.Calls`: a schema calls for a model under the model's name.
* `Document.Yields`: a model is a primitive type, or its name is the id of a component whose schema
  calls for it.
* `Stage.Named`: a stage has a plain hint only as the stage of the component of that id.

## Main results

* `Runs.yields`: a run registers under plain names only what the document yields.
-/

namespace ApiCatalog

/-! ## Models that are called for -/

/-- A schema calls for a model under the model's name: as its enumeration, its composition, its
object or its array. -/
inductive Schema.Calls (schema : Schema) : Model → Prop
  /-- An enumeration. -/
  | enumeration {model : Model} (h : model ∈ schema.enumerations model.name) : Calls schema model
  /-- A composition. -/
  | composition {name : ModelName} {kind : CompositionKind} {members : List Node}
      {references : List ModelName} (hshape : schema.composition? = some (kind, members)) :
      Calls schema (.composition name kind references)
  /-- An object. -/
  | object {name : ModelName} {properties : OrderedMap String Property}
      (hcalled : schema.types.contains .object = true) : Calls schema (.object name properties)
  /-- An array. -/
  | array {name : ModelName} {items : List ModelName}
      (hcalled : schema.types.contains .array = true) : Calls schema (.array name items)

/-- A flat schema calls for no model of its own. -/
theorem Schema.IsFlat.not_calls {schema : Schema} {model : Model} (h : schema.IsFlat) :
    ¬ schema.Calls model := by
  intro hcalls
  cases hcalls with
  | enumeration hmem =>
    rw [h.enumerations_eq] at hmem
    cases hmem
  | composition hshape => cases h.composition.symm.trans hshape
  | object hcalled => cases h.noObject.symm.trans hcalled
  | array hcalled => cases h.noArray.symm.trans hcalled

/-- The enumeration of a schema has the hint as its name, or a name that is not plain. -/
theorem Schema.name_eq_of_mem_enumerations {schema : Schema} {hint : ModelName} {model : Model}
    (h : model ∈ schema.enumerations hint) (hplain : Naming.IsPlain model.name) :
    model.name = hint := by
  unfold enumerations at h
  split at h
  · obtain rfl := List.mem_singleton.1 h
    cases hnull : schema.literals.contains .null with
    | true =>
      rw [enumerationModel, hnull] at hplain
      exact absurd hplain (Naming.not_isPlain_enumeration hint)
    | false =>
      rw [enumerationModel, hnull]
      rfl
  · cases h

/-- A model of a document: a primitive type, or one that a component calls for under its id. -/
inductive Document.Yields (document : Document) : Model → Prop
  /-- A primitive type. -/
  | primitive (kind : PrimitiveKind) : Yields document (.primitive kind)
  /-- A model of a component. -/
  | component {model : Model} {schema : Schema} (hstands : document.StandsFor model.name schema)
      (hcalls : schema.Calls model) : Yields document model

/-- All models under plain names are of the document. -/
def Document.YieldsPlain (document : Document) (state : ResolverState) : Prop :=
  ∀ model ∈ state.repository.models, Naming.IsPlain model.name → document.Yields model

namespace Document.YieldsPlain

variable {document : Document} {state : ResolverState} {cancelAt : Option Nat}

/-- One more model that is of the document, if its name is plain. -/
theorem register {model : Model} (h : document.YieldsPlain state)
    (hmodel : Naming.IsPlain model.name → document.Yields model) :
    document.YieldsPlain (state.register cancelAt model) := by
  intro other hother hplain
  rcases Repository.mem_models_register.1 hother with hold | ⟨rfl, -⟩
  · exact h other hold hplain
  · exact hmodel hplain

/-- More models that are of the document, if their names are plain. -/
theorem registerAll {models : List Model} (h : document.YieldsPlain state)
    (hmodels : ∀ model ∈ models, Naming.IsPlain model.name → document.Yields model) :
    document.YieldsPlain (state.registerAll cancelAt models) :=
  ResolverState.maintains_registerAll document.YieldsPlain
    (fun model hmodel hyields => hyields.register (hmodels model hmodel)) h

end Document.YieldsPlain

/-! ## Runs -/

/-- A stage has a plain hint only as the stage of the component of that id. -/
def Stage.Named (document : Document) {kind : StageKind} : Stage kind → Prop
  | .atNode node hint _ =>
    Naming.IsPlain hint → ∀ schema, node = .inline schema → document.StandsFor hint schema
  | .atSchema schema hint _ | .atObject schema hint | .atArray schema hint =>
    Naming.IsPlain hint → document.StandsFor hint schema
  | .atMembers _ _ _ _ _ | .atProperties _ _ _ _ => True

/-- The models that a schema calls for before its parts are looked at are of the document. -/
theorem yields_of_mem_flatModels {document : Document} {schema : Schema} {hint : ModelName}
    {nullable : Bool} {model : Model}
    (hnamed : Naming.IsPlain hint → document.StandsFor hint schema)
    (h : model ∈ schema.flatModels hint nullable) (hplain : Naming.IsPlain model.name) :
    document.Yields model := by
  rcases List.mem_append.1 h with hprimitive | henumeration
  · obtain ⟨kind, -, rfl⟩ := List.mem_map.1 hprimitive
    exact .primitive kind
  · obtain rfl := Schema.name_eq_of_mem_enumerations henumeration hplain
    exact .component (hnamed hplain) (.enumeration henumeration)

/-- **A run registers under plain names only what the document yields.**

**Proof sketch.** Induction on the run. A hint that is passed on to a part has a mark, and the hint
for a component that is entered is its id. -/
theorem Runs.yields {context : Context} {kind : StageKind} {active : List ModelName}
    {stage : Stage kind} {state state' : ResolverState} {answer : kind.Answer}
    (h : Runs context active stage state answer state') (hnamed : stage.Named context.document)
    (hyields : context.document.YieldsPlain state) : context.document.YieldsPlain state' := by
  induction h with
  | cancelled | finished | busy | allMembers | membersLeft | allProperties | noObject | knownObject
  | noArray | knownArray | refused | missing | untyped | noItems | anyItems => exact hyields
  | inline _ _ ih => exact ih (fun hplain => hnamed hplain _ rfl) hyields
  | entered _ hname _ _ hfound _ ih =>
    have hentered := ih (fun _ => standsFor_of_findSchema hname hfound) hyields
    intro model hmodel
    rw [ResolverState.repository_memoise] at hmodel
    exact hentered model hmodel
  | composed hshape _ _ ih =>
    exact (ih trivial hyields).register fun hplain =>
      .component (hnamed hplain) (.composition hshape)
  | abandoned _ _ _ ih | lostObject _ _ _ _ ih => exact ih trivial hyields
  | typed _ _ _ _ ihObject ihArray =>
    exact ihArray hnamed (ihObject hnamed
      (hyields.registerAll fun _ hmodel => yields_of_mem_flatModels hnamed hmodel))
  | nextMember _ _ _ ihFirst ihRest =>
    exact ihRest trivial
      (ihFirst (fun hplain => absurd hplain (Naming.not_isPlain_member _ _)) hyields)
  | nextProperty _ _ ihFirst ihRest =>
    exact ihRest trivial
      (ihFirst (fun hplain => absurd hplain (Naming.not_isPlain_property _ _)) hyields)
  | object hcalled _ _ _ ih =>
    exact (ih trivial hyields).register fun hplain => .component (hnamed hplain) (.object hcalled)
  | lostArray _ _ _ _ _ ih =>
    exact ih (fun hplain => absurd hplain (Naming.not_isPlain_arrayItem _)) hyields
  | array hcalled _ _ _ _ ih =>
    exact (ih (fun hplain => absurd hplain (Naming.not_isPlain_arrayItem _)) hyields).register
      fun hplain => .component (hnamed hplain) (.array hcalled)

end ApiCatalog
