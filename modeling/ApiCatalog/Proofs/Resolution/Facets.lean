import ApiCatalog.Proofs.Resolution.Cancellation
import ApiCatalog.Proofs.Resolution.Denotations
import ApiCatalog.Proofs.Resolution.Encounters
import ApiCatalog.Proofs.Resolution.Names
import ApiCatalog.Proofs.Resolution.Reservations

set_option autoImplicit false

/-!
# The models of a schema with several types

A schema may name any set of types, and each of them calls for a model: the primitive types for
their common ones, the literals for an enumeration, and there may be an object and an array. The
latter three go by the hint, the enumeration only if it does not admit null. But the hint names one
model: of those that go by it the first one is registered, in this order, and the others are
dropped without a word.

## Main definitions

* `Stage.Avoids`: a stage has no part of a certain name.
* `Document.LeavesOut`: no component that may still be entered has a part of a certain name.
* `ApiCatalog.FacetsModelled`: the models of a schema with types.

## Main results

* `ApiCatalog.find?_registerAll`: the model of a name after registrations.
* `Runs.avoids`: a name stays free in a run that has no part of that name.
* `ApiCatalog.facets_of_resolved`: what has become of each type that a schema names.
* `ApiCatalog.lost_facets`: types whose models are missing.
-/

namespace ApiCatalog

/-! ## What a name stands for -/

/-- A model is got by its name and its kind. -/
theorem Repository.getAs_of_find? {repository : Repository} {name : ModelName} {model : Model}
    (h : repository.find? name = some model) : repository.getAs name model.kind = .ok model := by
  rw [getAs, h]
  exact if_pos rfl

section Registrations

variable {cancelAt : Option Nat} {state : ResolverState} {name : ModelName}

/-- The model of a name after registrations: the one that was there before, or else the first one
registered. -/
theorem find?_registerAll (models : List Model) :
    (state.registerAll cancelAt models).repository.find? name =
      (state.repository.find? name).or (models.find? fun model => model.name = name) := by
  induction models generalizing state with
  | nil =>
    rw [List.find?_nil, Option.or_none]
    rfl
  | cons model rest ih =>
    have hrest : (state.registerAll cancelAt (model :: rest)).repository.find? name =
        ((state.register cancelAt model).repository.find? name).or
          (rest.find? fun model => model.name = name) := ih
    rw [hrest, ResolverState.repository_register, Repository.find?_register, Option.or_assoc]
    by_cases hname : model.name = name <;> simp [hname]

/-- The primitive model of a kind is the first of its name among primitive models. -/
theorem find?_primitives {kinds : List PrimitiveKind} {kind : PrimitiveKind} (h : kind ∈ kinds) :
    (kinds.map Model.primitive).find? (fun model => model.name = kind.canonicalName) =
      some (.primitive kind) := by
  induction kinds with
  | nil => cases h
  | cons first rest ih =>
    rw [List.map_cons, List.find?_cons]
    by_cases hname : (Model.primitive first).name = kind.canonicalName
    · obtain rfl : first = kind := Document.canonicalName_injective hname
      simp [hname]
    · have hne : first ≠ kind := fun heq => hname (heq ▸ rfl)
      simp only [hname, decide_false]
      exact ih ((List.mem_cons.1 h).resolve_left hne.symm)

/-- No primitive model has a name that is not that of a primitive type. -/
theorem find?_primitives_eq_none {kinds : List PrimitiveKind}
    (h : ∀ kind : PrimitiveKind, kind.canonicalName ≠ name) :
    (kinds.map Model.primitive).find? (fun model => model.name = name) = none := by
  rw [List.find?_eq_none]
  intro model hmodel
  obtain ⟨kind, -, rfl⟩ := List.mem_map.1 hmodel
  exact fun hname => h kind (of_decide_eq_true hname)

end Registrations

/-! ## Names that stay free -/

/-- A stage has no part of a certain name. The object or the array of a schema is not looked at if
its name is known. -/
def Stage.Avoids (name : ModelName) (state : ResolverState) {kind : StageKind} :
    Stage kind → Prop
  | .atNode node hint _ => .facet name ∉ node.findings hint
  | .atSchema schema hint _ => .facet name ∉ schema.findings hint
  | .atMembers _ members hint index _ => .facet name ∉ memberFindings members hint index
  | .atProperties _ properties hint _ => .facet name ∉ propertyFindings properties hint
  | .atObject schema hint => schema.types.contains .object = true →
    state.repository.contains hint = false →
    .facet name ∉ propertyFindings schema.properties hint ∧ hint ≠ name
  | .atArray schema hint => schema.types.contains .array = true →
    state.repository.contains hint = false →
    .facet name ∉ itemFindings schema.items hint ∧ hint ≠ name

/-- No component that may still be entered has a part of a certain name. -/
def Document.LeavesOut (document : Document) (active : List ModelName) (name : ModelName) : Prop :=
  ∀ id schema, id ∉ active → document.StandsFor id schema → .facet name ∉ schema.findings id

section Avoiding

variable {context : Context} {active : List ModelName} {schema : Schema} {hint name : ModelName}
  {nullable : Bool}

/-- A registration of another name leaves a name free. -/
theorem not_contains_register {cancelAt : Option Nat} {state : ResolverState} {model : Model}
    (hfree : state.repository.contains name = false) (hne : model.name ≠ name) :
    (state.register cancelAt model).repository.contains name = false := by
  refine Bool.eq_false_iff.2 fun hknown => ?_
  rcases Repository.contains_register.1 hknown with hknown | rfl
  · rw [hfree] at hknown
    cases hknown
  · exact hne rfl

/-- A schema that has no part of a name registers nothing of that name at once. -/
theorem not_contains_registerAll {state : ResolverState}
    (hprimitive : ∀ kind : PrimitiveKind, kind.canonicalName ≠ name)
    (hshape : schema.composition? = none) (htypes : schema.types.isEmpty = false)
    (hclear : .facet name ∉ schema.findings hint)
    (hfree : state.repository.contains name = false) (cancelAt : Option Nat) :
    (state.registerAll cancelAt (schema.flatModels hint nullable)).repository.contains name =
      false := by
  rw [findings_of_types hshape htypes] at hclear
  rw [← Repository.find?_eq_none_iff] at hfree ⊢
  rw [find?_registerAll, hfree, Option.none_or, Schema.flatModels, List.find?_append,
    find?_primitives_eq_none hprimitive, Option.none_or, List.find?_eq_none]
  intro model hmodel
  rw [decide_eq_true_eq]
  rintro rfl
  refine hclear ?_
  rcases name_of_mem_enumerations hmodel with hname | hname
  · rw [hname]
    exact List.mem_cons_self
  · exact List.mem_cons_of_mem _ (List.mem_append_left _ hname)

/-- If a schema has no part of a name, then neither has its object, once its other models are
registered. -/
theorem avoids_atObject (hshape : schema.composition? = none)
    (htypes : schema.types.isEmpty = false) (hclear : .facet name ∉ schema.findings hint)
    (cancelAt : Option Nat) (state : ResolverState) :
    (Stage.atObject schema hint).Avoids name
      (state.registerAll cancelAt (schema.flatModels hint nullable)) := by
  intro hcalled hunknown
  rw [findings_of_types hshape htypes] at hclear
  refine ⟨fun hmem => hclear (List.mem_cons_of_mem _ (List.mem_append_right _ ?_)), ?_⟩
  · have htakes : schema.takesHint hint = false := Bool.eq_false_iff.2 fun htakes => by
      rw [contains_of_takesHint htakes] at hunknown
      cases hunknown
    rw [Schema.facetFindings, if_neg (by simp [htakes]), if_pos hcalled]
    exact hmem
  · rintro rfl
    exact hclear List.mem_cons_self

/-- If a schema has no part of a name, then neither has its array, once its object is resolved. -/
theorem avoids_atArray {state state' : ResolverState} {done : Bool}
    (hshape : schema.composition? = none) (htypes : schema.types.isEmpty = false)
    (hclear : .facet name ∉ schema.findings hint)
    (hobject : Runs context active (.atObject schema hint)
      (state.registerAll context.cancelAt (schema.flatModels hint nullable)) done state')
    (hlive : state'.cancelled = false) : (Stage.atArray schema hint).Avoids name state' := by
  intro hcalled hunknown
  rw [findings_of_types hshape htypes] at hclear
  refine ⟨fun hmem => hclear (List.mem_cons_of_mem _ (List.mem_append_right _ ?_)), ?_⟩
  · have htakes : schema.takesHint hint = false := Bool.eq_false_iff.2 fun htakes => by
      rw [hobject.grows.contains (contains_of_takesHint htakes _ _)] at hunknown
      cases hunknown
    have hnone : schema.types.contains .object = false := Bool.eq_false_iff.2 fun hcalled => by
      rw [hobject.contains_of_atObject hlive hcalled] at hunknown
      cases hunknown
    rw [Schema.facetFindings, if_neg (by simp [htakes]), if_neg (by simp [hnone]), if_pos hcalled]
    exact hmem
  · rintro rfl
    exact hclear List.mem_cons_self

/-- An array registers nothing once the resolution is cancelled. -/
theorem Runs.repository_of_cancelled {state state' : ResolverState} {done : Bool}
    (h : Runs context active (.atArray schema hint) state done state')
    (hcancelled : state.cancelled = true) : state'.repository = state.repository := by
  obtain ⟨_, _, -, hsame, hrun⟩ := Runs.array_of_cancelled hcancelled schema hint
  rw [(h.unique hrun).2, hsame]

/-- **A name stays free in a run that has no part of that name.**

**Proof sketch.** Induction on the run. No stage registers a model of that name: not one of its own,
since models are named as the parts are, and none of a component that is entered. -/
theorem Runs.avoids (hprimitive : ∀ kind : PrimitiveKind, kind.canonicalName ≠ name)
    {kind : StageKind} {stage : Stage kind} {state state' : ResolverState} {answer : kind.Answer}
    (h : Runs context active stage state answer state')
    (hleaves : context.document.LeavesOut active name) (havoids : stage.Avoids name state)
    (hfree : state.repository.contains name = false) :
    state'.repository.contains name = false := by
  induction h with
  | cancelled | finished | busy | allMembers | membersLeft | allProperties | noObject | knownObject
  | noArray | knownArray | refused | missing | untyped | noItems | anyItems => exact hfree
  | inline _ _ ih => exact ih hleaves (by rwa [Stage.Avoids, Node.findings] at havoids) hfree
  | entered _ hname _ hfresh hfound _ ih =>
    rw [ResolverState.repository_memoise]
    exact ih (fun id schema hid => hleaves id schema fun hmem => hid (List.mem_cons_of_mem _ hmem))
      (hleaves _ _ hfresh (standsFor_of_findSchema hname hfound)) hfree
  | composed hshape _ _ ih =>
    rw [Stage.Avoids, findings_of_composition hshape] at havoids
    refine not_contains_register (ih hleaves (fun hmem => ?_) hfree) fun heq => ?_
    · exact havoids (List.mem_cons_of_mem _ (List.mem_append_right _ hmem))
    · exact havoids (heq ▸ List.mem_cons_self)
  | abandoned hshape _ _ ih =>
    rw [Stage.Avoids, findings_of_composition hshape] at havoids
    exact ih hleaves (fun hmem =>
      havoids (List.mem_cons_of_mem _ (List.mem_append_right _ hmem))) hfree
  | @typed active schema hint nullable state objectDone state₁ arrayDone state₂ hshape htypes
      hobject harray ihObject ihArray =>
    have hfree₁ := ihObject hleaves (avoids_atObject hshape htypes havoids _ _)
      (not_contains_registerAll hprimitive hshape htypes havoids hfree _)
    cases hlive : state₁.cancelled with
    | true =>
      rw [harray.repository_of_cancelled hlive]
      exact hfree₁
    | false => exact ihArray hleaves (avoids_atArray hshape htypes havoids hobject hlive) hfree₁
  | nextMember _ _ _ ihFirst ihRest =>
    rw [Stage.Avoids, memberFindings, List.mem_append, not_or] at havoids
    exact ihRest hleaves havoids.2 (ihFirst hleaves havoids.1 hfree)
  | nextProperty _ _ ihFirst ihRest =>
    rw [Stage.Avoids, propertyFindings, List.mem_append, not_or] at havoids
    exact ihRest hleaves havoids.2 (ihFirst hleaves havoids.1 hfree)
  | lostObject hcalled hunknown _ _ ih => exact ih hleaves (havoids hcalled hunknown).1 hfree
  | object hcalled hunknown _ _ ih =>
    obtain ⟨hclear, hne⟩ := havoids hcalled hunknown
    exact not_contains_register (ih hleaves hclear hfree) hne
  | lostArray hcalled hunknown hitems _ _ ih =>
    have hclear := (havoids hcalled hunknown).1
    rw [hitems, itemFindings] at hclear
    exact ih hleaves hclear hfree
  | array hcalled hunknown hitems _ _ ih =>
    obtain ⟨hclear, hne⟩ := havoids hcalled hunknown
    rw [hitems, itemFindings] at hclear
    exact not_contains_register (ih hleaves hclear hfree) hne

end Avoiding

/-! ## The models of the types -/

/-- The models of a schema with types, resolved from one state to another. -/
structure FacetsModelled (context : Context) (active : List ModelName) (schema : Schema)
    (hint : ModelName) (nullable : Bool) (state state' : ResolverState) : Prop where
  /-- A primitive type has its common model, unless its name stood for another one before. -/
  primitive : ∀ kind : PrimitiveKind, (schema.typesIn nullable).contains kind.schemaType = true →
    state'.repository.find? kind.canonicalName =
      some ((state.repository.find? kind.canonicalName).getD (.primitive kind))
  /-- The literals of a text make up an enumeration, with the texts among them in order. -/
  enumeration : schema.types.contains .string = true → schema.literals ≠ [] →
    state'.repository.getAs (Naming.enumeration hint (schema.literals.contains .null))
        .enumeration =
      .ok (.enumeration (Naming.enumeration hint (schema.literals.contains .null))
        (EnumLiteral.texts schema.literals) (schema.literals.contains .null))
  /-- An enumeration that goes by the hint is all that goes by it. -/
  taken : schema.takesHint hint = true →
    state'.repository.find? hint = some (enumerationModel hint schema.literals)
  /-- If the hint is not taken, an object has exactly the declared properties, and goes by the hint
  unless a component took that while the properties were resolved. -/
  object : schema.types.contains .object = true → schema.takesHint hint = false →
    ∃ result middle,
      resolveProperties context (followReference context active) schema.required schema.properties
          hint {} (state.registerAll context.cancelAt (schema.flatModels hint nullable)) =
        .ok result middle ∧
      schema.Describes result.properties ∧
      (middle.repository.contains hint = false →
        state'.repository.getAs hint .object = .ok (.object hint result.properties)) ∧
      (middle.repository.contains hint = true →
        state'.repository.find? hint = middle.repository.find? hint) ∧
      (context.document.LeavesOut active hint → middle.repository.contains hint = false)
  /-- If there is no object either, an array has what its items are resolved to, and goes by the
  hint unless a component took that while the items were resolved. -/
  array : schema.types.contains .array = true → schema.takesHint hint = false →
    schema.types.contains .object = false →
    ∃ node items middle, schema.items = some (.each node) ∧
      resolveNode context (followReference context active) node (Naming.arrayItem hint) false
          (state.registerAll context.cancelAt (schema.flatModels hint nullable)) =
        .ok items middle ∧
      items.succeeded = true ∧
      (middle.repository.contains hint = false →
        state'.repository.getAs hint .array = .ok (.array hint items.references)) ∧
      (middle.repository.contains hint = true →
        state'.repository.find? hint = middle.repository.find? hint) ∧
      (context.document.LeavesOut active hint → middle.repository.contains hint = false)

section Resolved

variable {context : Context} {active : List ModelName} {schema : Schema} {hint : ModelName}
  {nullable : Bool} {state state' : ResolverState}

/-- The items of an array do not have its name. -/
theorem facet_not_mem_findings_arrayItem (node : Node) (hint : ModelName) :
    .facet hint ∉ node.findings (Naming.arrayItem hint) :=
  fun h => absurd (length_of_mem_findings.1 node _ hint h) (Nat.not_le.2 (length_lt_arrayItem hint))

/-- The enumeration of a schema takes the hint just if it does not admit null. -/
theorem takesHint_iff : schema.takesHint hint = true ↔
    (schema.types.contains .string = true ∧ schema.literals ≠ []) ∧
      Naming.enumeration hint (schema.literals.contains .null) = hint := by
  unfold Schema.takesHint Schema.enumerations
  by_cases hcalled : (schema.types.contains .string && !schema.literals.isEmpty) = true
  · have hcalled' : schema.types.contains .string = true ∧ schema.literals ≠ [] := by
      simpa using hcalled
    rw [if_pos hcalled]
    simp [hcalled', enumerationModel, Model.name, eq_comm]
  · have hcalled' : ¬ (schema.types.contains .string = true ∧ schema.literals ≠ []) := by
      simpa using hcalled
    rw [if_neg hcalled]
    simp [hcalled']

/-- The name of an enumeration is not that of a primitive type, unless the hint is. -/
theorem canonicalName_ne_enumeration (h : ∀ kind : PrimitiveKind, kind.canonicalName ≠ hint)
    (null : Bool) (kind : PrimitiveKind) : kind.canonicalName ≠ Naming.enumeration hint null := by
  cases null with
  | false => exact h kind
  | true => exact fun heq =>
      Naming.not_isPlain_enumeration hint (heq ▸ Naming.isPlain_canonicalName kind)

/-- The name of an enumeration begins with the hint. -/
theorem prefix_enumeration (hint : ModelName) (null : Bool) :
    hint.toList <+: (Naming.enumeration hint null).toList := by
  cases null with
  | false => exact List.prefix_rfl
  | true =>
    rw [Naming.enumeration, if_pos rfl, String.toList_append]
    exact List.prefix_append _ _

/-- A free hint stands for the model that is registered under it from then on, and a hint that is
taken for what took it. -/
theorem getAs_of_grows_register {middle : ResolverState} {cancelAt : Option Nat} (model : Model)
    (hgrows : (middle.register cancelAt model).Grows state') :
    (middle.repository.contains model.name = false →
      state'.repository.getAs model.name model.kind = .ok model) ∧
    (middle.repository.contains model.name = true →
      state'.repository.find? model.name = middle.repository.find? model.name) := by
  have hfind : (middle.repository.register model).2.find? model.name =
      (middle.repository.find? model.name).or (some model) := by
    rw [Repository.find?_register, if_pos rfl]
  refine ⟨fun hfree => Repository.getAs_of_find? (hgrows.find? ?_), fun hknown => ?_⟩
  · rw [ResolverState.repository_register, hfind, Repository.find?_eq_none_iff.2 hfree,
      Option.none_or]
  · cases hother : middle.repository.find? model.name with
    | none =>
      rw [Repository.find?_eq_none_iff.1 hother] at hknown
      cases hknown
    | some other =>
      refine hgrows.find? ?_
      rw [ResolverState.repository_register, hfind, hother, Option.some_or]

/-- An object that is called for, and whose name is free, has all its properties if it was resolved
with success. -/
theorem Runs.object_of_succeeded {done : Bool}
    (h : Runs context active (.atObject schema hint) state done state') (hdone : done = true)
    (hcalled : schema.types.contains .object = true)
    (hunknown : state.repository.contains hint = false) :
    ∃ result middle,
      Runs context active (.atProperties schema.required schema.properties hint {}) state result
        middle ∧
      schema.Describes result.properties ∧
      state' = middle.register context.cancelAt (.object hint result.properties) := by
  cases h with
  | noObject hnone =>
    rw [hcalled] at hnone
    cases hnone
  | knownObject _ hknown =>
    rw [hunknown] at hknown
    cases hknown
  | lostObject => cases hdone
  | object _ _ hproperties =>
    exact ⟨_, _, hproperties, hproperties.describes hdone (.empty _), rfl⟩

/-- An array that is called for, and whose name is free, has its items if it was resolved with
success. -/
theorem Runs.array_of_succeeded {done : Bool}
    (h : Runs context active (.atArray schema hint) state done state') (hdone : done = true)
    (hcalled : schema.types.contains .array = true)
    (hunknown : state.repository.contains hint = false) :
    ∃ node items middle, schema.items = some (.each node) ∧
      Runs context active (.atNode node (Naming.arrayItem hint) false) state items middle ∧
      items.succeeded = true ∧
      state' = middle.register context.cancelAt (.array hint items.references) := by
  cases h with
  | noArray hnone =>
    rw [hcalled] at hnone
    cases hnone
  | knownArray _ hknown =>
    rw [hunknown] at hknown
    cases hknown
  | noItems | anyItems | lostArray => cases hdone
  | array _ _ hitems hnode hsucceeded => exact ⟨_, _, _, hitems, hnode, hsucceeded, rfl⟩

/-- **What has become of each type that a schema names**, if the schema was resolved with success
under a hint that no registered name begins with, and that is not the name of a primitive type.

**Proof sketch.** The primitive models and the enumeration are registered at once
(`find?_registerAll`). Then the hint is free unless the enumeration has taken it, and since
everything went well the properties of the object, or the items of the array, were all resolved; in
the meantime only a component can have taken the hint (`Runs.avoids`). -/
theorem facets_of_resolved {resolution : Resolution} (hlive : state.cancelled = false)
    (hfresh : ∀ model ∈ state.repository.models, ¬ hint.toList <+: model.name.toList)
    (hprimitive : ∀ kind : PrimitiveKind, kind.canonicalName ≠ hint)
    (hshape : schema.composition? = none)
    (h : resolveNode context (followReference context active) (.inline schema) hint nullable state =
      .ok resolution state')
    (hsucceeded : resolution.succeeded = true) :
    FacetsModelled context active schema hint nullable state state' := by
  have hfree : ∀ name : ModelName, hint.toList <+: name.toList →
      state.repository.find? name = none := by
    intro name hname
    rw [Repository.find?, List.find?_eq_none]
    intro model hmodel heq
    exact hfresh model hmodel (of_decide_eq_true heq ▸ hname)
  have hschema : Runs context active (.atSchema schema hint nullable) state resolution state' := by
    cases runs_of_ok h with
    | cancelled hcancelled =>
      rw [hlive] at hcancelled
      cases hcancelled
    | inline _ hschema => exact hschema
  have htypes : schema.types.isEmpty = false := Bool.eq_false_iff.2 fun htypes => by
    rw [(hschema.of_untyped hshape htypes).1] at hsucceeded
    cases hsucceeded
  obtain ⟨objectDone, after, arrayDone, hobject, harray, rfl⟩ := hschema.of_types hshape htypes
  obtain ⟨hobjectDone, harrayDone⟩ : objectDone = true ∧ arrayDone = true := by
    simpa using hsucceeded
  have hgrows := hobject.grows.trans harray.grows
  have henumeration : schema.types.contains .string = true → schema.literals ≠ [] →
      state'.repository.find? (Naming.enumeration hint (schema.literals.contains .null)) =
        some (enumerationModel hint schema.literals) := by
    intro hstring hliterals
    refine hgrows.find? ?_
    rw [find?_registerAll, hfree _ (prefix_enumeration _ _), Option.none_or, Schema.flatModels,
      List.find?_append, find?_primitives_eq_none (canonicalName_ne_enumeration hprimitive _),
      Option.none_or, Schema.enumerations, if_pos (by simpa [hstring] using hliterals)]
    simp [enumerationModel, Model.name]
  have hunknown : schema.takesHint hint = false →
      (state.registerAll context.cancelAt (schema.flatModels hint nullable)).repository.contains
        hint = false := by
    intro htakes
    rw [← Repository.find?_eq_none_iff, find?_registerAll, hfree _ List.prefix_rfl, Option.none_or,
      Schema.flatModels, List.find?_append, find?_primitives_eq_none hprimitive, Option.none_or,
      List.find?_eq_none]
    intro model hmodel heq
    rw [Schema.takesHint, ← Bool.not_eq_true, List.contains_iff_mem] at htakes
    exact htakes (List.mem_map.2 ⟨model, hmodel, of_decide_eq_true heq⟩)
  constructor
  case primitive =>
    intro kind hkind
    refine hgrows.find? ?_
    rw [find?_registerAll, Schema.flatModels, List.find?_append,
      find?_primitives (mem_primitives_iff.2 hkind), Option.some_or]
    cases state.repository.find? kind.canonicalName <;> rfl
  case enumeration =>
    intro hstring hliterals
    exact Repository.getAs_of_find? (henumeration hstring hliterals)
  case taken =>
    intro htakes
    obtain ⟨⟨hstring, hliterals⟩, hname⟩ := takesHint_iff.1 htakes
    rw [← henumeration hstring hliterals, hname]
  case object =>
    intro hcalled htakes
    obtain ⟨result, middle, hproperties, hdescribes, rfl⟩ :=
      hobject.object_of_succeeded hobjectDone hcalled (hunknown htakes)
    obtain ⟨hget, hkept⟩ := getAs_of_grows_register _ harray.grows
    exact ⟨result, middle, hproperties.step_eq_ok, hdescribes, hget, hkept, fun hleaves =>
      hproperties.avoids hprimitive hleaves (facet_not_mem_propertyFindings _ _) (hunknown htakes)⟩
  case array =>
    intro hcalled htakes hnone
    cases hobject with
    | knownObject hcalled' | lostObject hcalled' | object hcalled' =>
      rw [hnone] at hcalled'
      cases hcalled'
    | noObject =>
      obtain ⟨node, items, middle, hitems, hnode, hsucceeded', rfl⟩ :=
        harray.array_of_succeeded harrayDone hcalled (hunknown htakes)
      obtain ⟨hget, hkept⟩ := getAs_of_grows_register (.array hint items.references)
        (.refl (middle.register context.cancelAt _))
      exact ⟨node, items, middle, hitems, hnode.step_eq_ok, hsucceeded', hget, hkept, fun hleaves =>
        hnode.avoids hprimitive hleaves (facet_not_mem_findings_arrayItem node hint)
          (hunknown htakes)⟩

end Resolved

/-! ## Types that are modelled, and types that are not -/

/-- A text out of three literals, one of them null, or an object. -/
def textOrRecord : Schema :=
  { types := .ofList [.string, .object]
    literals := [.text "a", .null, .text "b"]
    properties := [("p", .inline { types := .ofList [.integer] })] }

/-- An enumeration that admits null leaves the hint to the object. -/
theorem facets_textOrRecord :
    let context : Context := ⟨.ofSchemas [], none⟩
    ∃ state, resolveNode context (followReference context []) (.inline textOrRecord) "H" false {} =
        .ok ⟨["#/primitive/string", "H?", "H"], true⟩ state ∧
      state.repository.find? "#/primitive/string" = some (.primitive .string) ∧
      state.repository.getAs "H?" .enumeration = .ok (.enumeration "H?" ["a", "b"] true) ∧
      ∃ properties, state.repository.getAs "H" .object = .ok (.object "H" properties) ∧
        textOrRecord.Describes properties := by
  intro context
  have hprimitive : ∀ kind : PrimitiveKind, kind.canonicalName ≠ "H" := by
    intro kind
    cases kind <;> decide
  have hleaves : context.document.LeavesOut [] "H" := by
    intro id schema _ hstands
    cases hstands with
    | inPlace hfind | viaAlias hfind => cases hfind
  obtain ⟨state, hrun⟩ : ∃ state, resolveNode context (followReference context [])
      (.inline textOrRecord) "H" false {} =
        .ok ⟨["#/primitive/string", "H?", "H"], true⟩ state := ⟨_, rfl⟩
  have hfacets := facets_of_resolved rfl (fun _ hmodel => absurd hmodel List.not_mem_nil)
    hprimitive rfl hrun rfl
  obtain ⟨result, middle, -, hdescribes, hget, -, hclear⟩ := hfacets.object rfl rfl
  exact ⟨state, hrun, hfacets.primitive .string rfl, hfacets.enumeration rfl (by decide), _,
    hget (hclear hleaves), hdescribes⟩

/-- A component, and an object that refers to it, resolved under its name. -/
def namesakeDocument : Document :=
  .ofSchemas [("Pet.p", .inline { types := .ofList [.object],
                                  properties := [("q", .inline { types := .ofList [.string] })] })]

/-- **Types are lost without a word**: of a text and an object that go by the same hint only the
text is modelled, of an object and an array only the object; and instead of an object there may be
that of a component that it refers to. -/
theorem lost_facets :
    (∃ state, resolve ⟨.ofSchemas [], none⟩
        (.inline { types := .ofList [.string, .object], literals := [.text "a"],
                   properties := [("p", .inline { types := .ofList [.string] })] }) "H" {} =
          .ok ⟨["#/primitive/string", "H", "H"], true⟩ state ∧
        state.repository.getAs "H" .object = .error (.kindMismatch "H" .object .enumeration) ∧
        state.diagnostics = []) ∧
    (∃ state, resolve ⟨.ofSchemas [], none⟩
        (.inline { types := .ofList [.object, .array],
                   items := some (.each (.inline { types := .ofList [.string] })) }) "H" {} =
          .ok ⟨["H", "H"], true⟩ state ∧
        state.repository.getAs "H" .array = .error (.kindMismatch "H" .array .object) ∧
        state.diagnostics = []) ∧
    (∃ state, resolve ⟨namesakeDocument, none⟩
        (.inline { types := .ofList [.object],
                   properties := [("r", .reference "#/components/schemas/Pet.p")] }) "Pet.p" {} =
          .ok ⟨["Pet.p"], true⟩ state ∧
        state.repository.getAs "Pet.p" .object = .ok (.object "Pet.p"
          (.ofList [("q", ⟨"q", ["#/primitive/string"], .optional⟩)]))) := by
  refine ⟨⟨_, rfl, rfl, rfl⟩, ⟨_, rfl, rfl, rfl⟩, ?_⟩
  have hcheck : (resolve ⟨namesakeDocument, none⟩
      (.inline { types := .ofList [.object],
                 properties := [("r", .reference "#/components/schemas/Pet.p")] })
      "Pet.p").answersWith {} (fun resolution state =>
        resolution = ⟨["Pet.p"], true⟩ &&
        state.repository.getAs "Pet.p" .object = .ok (.object "Pet.p"
          (.ofList [("q", ⟨"q", ["#/primitive/string"], .optional⟩)]))) = true := by
    decide +kernel
  obtain ⟨resolution, state, hanswer, hstate⟩ := Resolver.exists_of_answersWith hcheck
  simp only [Bool.and_eq_true, decide_eq_true_eq] at hstate
  obtain ⟨rfl, hobject⟩ := hstate
  exact ⟨state, hanswer, hobject⟩

end ApiCatalog
