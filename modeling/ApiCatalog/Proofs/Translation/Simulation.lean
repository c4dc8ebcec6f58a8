import ApiCatalog.Proofs.Translation.Tracking

set_option autoImplicit false

/-!
# The walk carries out the translation

Whatever components were finished before, the walk of a schema answers what its translation denotes,
and registers the models of that and of the components that it finishes on its way; unless there is
a reference that cannot be taken apart.

## Main definitions

* `Document.Meets`: a step that meets certain findings of a component answers a value and registers
  models.

## Main results

* `Document.Meets.bind`: one step after another.
* `Document.meets_schema`: the walk of a schema carries out its translation if references are
  followed to what they denote.
-/

namespace ApiCatalog

namespace Document

/-- In whatever state certain findings of the component `current` are still to be met, a step
answers a value and registers models, or a reference cannot be taken apart. -/
def Meets (document : Document) (answer : String → Resolution) (active : List ModelName)
    (current : String) {α : Type} (findings : List Finding) (step : Resolver α) (value : α)
    (models : List Model) : Prop :=
  ∀ state, document.Tracks answer active state → document.Part current findings state →
    Resolver.Ends (¬ document.Readable) step state fun a state' =>
      a = value ∧ document.Effect answer active findings state state' models

variable {document : Document} {answer : String → Resolution} {active : List ModelName}
  {current : String} {α β : Type}

/-! ## Rules -/

namespace Meets

variable {first second findings : List Finding} {models₁ models₂ models : List Model}

/-- An answer meets nothing. -/
theorem pure (a : α) : document.Meets answer active current [] (pure a) a [] :=
  fun _ htracks _ => .of_ok rfl ⟨rfl, .refl htracks⟩

/-- One step after another. -/
theorem bind {x : Resolver α} {f : α → Resolver β} {a : α} {b : β} (hcurrent : current ∈ active)
    (hx : document.Meets answer active current first x a models₁)
    (hf : document.Meets answer active current second (f a) b models₂) :
    document.Meets answer active current (first ++ second) (x >>= f) b (models₁ ++ models₂) := by
  intro state htracks hpart
  refine .bind ((hx state htracks hpart.left).mono ?_)
  rintro _ s ⟨rfl, he⟩
  refine (hf s he.tracks (hpart.right hcurrent he)).mono ?_
  rintro _ s' ⟨rfl, he'⟩
  exact ⟨rfl, he.trans he'⟩

/-- A step that meets nothing, before another. -/
theorem bind_nil {x : Resolver α} {f : α → Resolver β} {a : α} {b : β} (hcurrent : current ∈ active)
    (hx : document.Meets answer active current [] x a [])
    (hf : document.Meets answer active current findings (f a) b models) :
    document.Meets answer active current findings (x >>= f) b models :=
  hx.bind hcurrent hf

/-- A step that registers nothing, before another. -/
theorem ask {x : Resolver α} {f : α → Resolver β} {a : α} {b : β} (hcurrent : current ∈ active)
    (hx : document.Meets answer active current first x a [])
    (hf : document.Meets answer active current second (f a) b models) :
    document.Meets answer active current (first ++ second) (x >>= f) b models :=
  hx.bind hcurrent hf

/-- What is answered may be turned into another answer. -/
theorem map {x : Resolver α} {f : α → Resolver β} {a : α} {b : β} (hcurrent : current ∈ active)
    (hx : document.Meets answer active current findings x a models)
    (hf : document.Meets answer active current [] (f a) b []) :
    document.Meets answer active current findings (x >>= f) b models := by
  have h := hx.bind hcurrent hf
  rwa [List.append_nil, List.append_nil] at h

/-- The order in which findings are listed does not matter. -/
theorem perm {step : Resolver α} {a : α}
    (h : document.Meets answer active current first step a models) (hperm : first.Perm second) :
    document.Meets answer active current second step a models := by
  intro state htracks hpart
  refine (h state htracks (hpart.perm hperm.symm)).mono ?_
  rintro _ s ⟨rfl, he⟩
  exact ⟨rfl, he.perm hperm⟩

/-- A last step that meets one more finding, which may be listed first. -/
theorem lastly {x : Resolver α} {f : α → Resolver β} {a : α} {b : β} {finding : Finding}
    (hcurrent : current ∈ active)
    (hx : document.Meets answer active current findings x a models₁)
    (hf : document.Meets answer active current [finding] (f a) b models₂) :
    document.Meets answer active current (finding :: findings) (x >>= f) b
      (models₁ ++ models₂) :=
  (hx.bind hcurrent hf).perm List.perm_append_comm

/-- A finding of which nothing comes may be met besides. -/
theorem cons {step : Resolver α} {a : α} {finding : Finding}
    (h : document.Meets answer active current findings step a models)
    (hreadable : finding.Readable document) :
    document.Meets answer active current (finding :: findings) step a models := by
  intro state htracks hpart
  have hrest : document.Part current findings state :=
    ⟨fun _ hmem => hpart.subset (List.mem_cons_of_mem _ hmem),
      hpart.nodup.sublist ((List.sublist_cons_self _ _).filterMap _),
      fun name hmem => hpart.fresh name (List.mem_cons_of_mem _ hmem)⟩
  refine (h state htracks hrest).mono ?_
  rintro _ s ⟨rfl, he⟩
  refine ⟨rfl, he.widen (List.subset_cons_self _ _) fun other hother => ?_⟩
  rcases List.mem_cons.1 hother with rfl | hother
  · exact .inr hreadable
  · exact .inl hother

/-- The extraction is not cancelled. -/
theorem isCancelled :
    document.Meets answer active current [] Resolver.isCancelled false [] :=
  fun _ htracks _ => .of_ok Resolver.isCancelled_apply ⟨htracks.running, .refl htracks⟩

/-- A diagnostic is recorded. -/
theorem record (diagnostic : Diagnostic) :
    document.Meets answer active current [] (Resolver.record diagnostic) () [] :=
  fun _ htracks _ => .of_ok rfl ⟨rfl, .record htracks diagnostic⟩

/-- A model is registered under its own name. -/
theorem register (hdistinct : document.Distinct) (hcurrent : current ∈ active) (model : Model) :
    document.Meets answer active current [.facet model.name] (Resolver.register none model) ()
      [model] := by
  intro state htracks hpart
  have hmem : .facet model.name ∈ [Finding.facet model.name] := List.mem_singleton_self _
  exact .of_ok rfl ⟨rfl, .register htracks hdistinct hcurrent (hpart.subset hmem)
    (hpart.fresh _ hmem)⟩

/-- A step that is taken only once is taken now, since its name is free. -/
theorem registerOnce {name : ModelName} {step : Resolver Bool} {done : Bool}
    (h : document.Meets answer active current (.facet name :: findings) step done models) :
    document.Meets answer active current (.facet name :: findings) (registerOnce true name step)
      done models := by
  intro state htracks hpart
  have hfree : state.repository.contains name = false := hpart.fresh name List.mem_cons_self
  refine .bind_ok (Resolver.isKnown_apply name) ?_
  rw [hfree]
  exact h state htracks hpart

end Meets

/-! ## The parts of a schema -/

/-- A reference that is met in the component `current` is followed to what it denotes there. -/
def Follows (document : Document) (answer : String → Resolution) (active : List ModelName)
    (current : String) (follow : FollowReference) : Prop :=
  ∀ target hint, document.Meets answer active current [.reference target] (follow target hint)
    (document.follow answer current target) []

/-- A component that is walked, and the way in which references are followed. -/
structure Walks (document : Document) (answer : String → Resolution) (active : List ModelName)
    (current : String) (follow : FollowReference) : Prop where
  distinct : document.Distinct
  isActive : current ∈ active
  follows : document.Follows answer active current follow

section Walk

variable {follow : FollowReference} (h : document.Walks answer active current follow)

include h

omit h in
/-- The models of an array are those of its items and, if these could be translated, its own. -/
theorem models_array_some (hint : ModelName) (items : Translation) :
    (Translation.array hint (some items)).1 = items.models ++
      if items.resolution.succeeded then [.array hint items.resolution.references] else [] := by
  rw [Translation.array]
  split <;> simp

/-- A composition is registered under its name. -/
theorem meets_registerComposition (kind : CompositionKind) (hint : ModelName)
    (result : MemberResult) :
    document.Meets answer active current [.facet hint]
      (registerComposition ⟨document, none⟩ kind hint (some result))
      (.single hint result.succeeded) [.composition hint kind result.references] :=
  Meets.map h.isActive
    (Meets.register h.distinct h.isActive (.composition hint kind result.references)) (.pure _)

/-- An object is registered under its name. -/
theorem meets_registerObject (hint : ModelName) (result : PropertyResult) :
    document.Meets answer active current [.facet hint]
      (registerObject ⟨document, none⟩ hint result) result.succeeded
      [.object hint result.properties] :=
  Meets.bind_nil h.isActive .isCancelled <|
    Meets.map h.isActive (Meets.register h.distinct h.isActive (.object hint result.properties))
      (.pure _)

/-- An array is registered under its name, if its items could be resolved. -/
theorem meets_registerArray (hint : ModelName) (items : Translation) :
    document.Meets answer active current [.facet hint]
      (registerArray ⟨document, none⟩ hint items.resolution)
      (Translation.array hint (some items)).2
      (if items.resolution.succeeded then [.array hint items.resolution.references] else []) := by
  rw [registerArray, Translation.array]
  split
  · exact Meets.map h.isActive
      (Meets.register h.distinct h.isActive (.array hint items.resolution.references)) (.pure _)
  · exact Meets.cons (.pure false) trivial

omit h in
/-- Whether a composition offers null is found out, if the references in it can be taken apart. -/
theorem meets_offersNull (kind : CompositionKind) (members : List Node) :
    document.Meets answer active current (unionFindings kind members)
      (Resolver.ofExcept (offersNull document kind members)) (offers document kind members) [] := by
  cases kind with
  | oneOf => exact .pure false
  | allOf => exact .pure false
  | anyOf =>
    simp only [unionFindings, offersNull, offers]
    cases hfound : anyAdmitsNull document members with
    | ok found => exact (Meets.pure found).cons ⟨found, hfound⟩
    | error abort =>
      intro state _ hpart
      refine .of_error (Resolver.throw_apply abort) fun hreadable => ?_
      obtain ⟨found, hok⟩ := hreadable current _ (hpart.subset (List.mem_singleton_self _))
      rw [hfound] at hok
      cases hok

/-- A reference is resolved to what it denotes. -/
theorem meets_reference (target : String) (hint : ModelName) (nullable : Bool) :
    document.Meets answer active current [.reference target]
      (resolveNode ⟨document, none⟩ follow (.reference target) hint nullable)
      (document.follow answer current target) [] := by
  intro state htracks hpart
  rw [resolveNode]
  exact .unlessCancelled htracks.running (h.follows target hint state htracks hpart)

/-- A composition is registered after its members. -/
theorem meets_composition {schema : Schema} {kind : CompositionKind} {members : List Node}
    {hint : ModelName} {nullable : Bool} {translated : List Translation}
    (hshape : schema.composition? = some (kind, members))
    (hmembers : document.Meets answer active current (memberFindings members hint 0)
      (resolveMembers ⟨document, none⟩ follow (offers document kind members) members hint 0 {})
      (some (Translation.gatherMembers {} translated)) (translated.flatMap Translation.models)) :
    document.Meets answer active current (schema.findings hint)
      (resolveSchema ⟨document, none⟩ follow schema hint nullable)
      (Translation.composition kind hint translated).resolution
      (Translation.composition kind hint translated).models := by
  rw [resolveSchema_of_composition _ _ hshape, findings_of_composition hshape]
  have hrest := hmembers.lastly h.isActive (meets_registerComposition h kind hint _)
  exact Meets.perm (Meets.ask h.isActive (meets_offersNull kind members) hrest) List.perm_middle

/-- A schema that says nothing is reported. -/
theorem meets_untyped {schema : Schema} {hint : ModelName} {nullable : Bool}
    (hshape : schema.composition? = none) (htypes : schema.types.isEmpty = true) :
    document.Meets answer active current (schema.findings hint)
      (resolveSchema ⟨document, none⟩ follow schema hint nullable) .failed [] := by
  rw [resolveSchema_of_untyped _ _ hshape htypes, findings_of_untyped hshape htypes]
  exact Meets.cons (Meets.cons (Meets.map h.isActive (.record _) (.pure _)) trivial) trivial

/-- An object is registered after its properties, under a name that is free. -/
theorem meets_object {schema : Schema} {hint : ModelName}
    {properties : List (String × Translation)} (hcalled : schema.types.contains .object = true)
    (hproperties : document.Meets answer active current (propertyFindings schema.properties hint)
      (resolveProperties ⟨document, none⟩ follow schema.required schema.properties hint {})
      (Translation.gatherProperties schema.required {} properties)
      (properties.flatMap fun property => property.2.models)) :
    document.Meets answer active current (.facet hint :: propertyFindings schema.properties hint)
      ((Stage.atObject schema hint).step ⟨document, none⟩ follow)
      (Translation.object schema.required hint properties).2
      (Translation.object schema.required hint properties).1 := by
  rw [Stage.step, hcalled]
  exact Meets.registerOnce (hproperties.lastly h.isActive (meets_registerObject h hint _))

omit h in
/-- The object or the array of a schema is registered, if its name is free. -/
theorem meets_facets {schema : Schema} {hint : ModelName}
    {properties : List (String × Translation)} {items : Option Translation}
    (references : List ModelName) (htakes : schema.takesHint hint = false)
    (hobject : schema.types.contains .object = true →
      document.Meets answer active current (.facet hint :: propertyFindings schema.properties hint)
        ((Stage.atObject schema hint).step ⟨document, none⟩ follow)
        (Translation.object schema.required hint properties).2
        (Translation.object schema.required hint properties).1)
    (harray : schema.types.contains .array = true →
      document.Meets answer active current (.facet hint :: itemFindings schema.items hint)
        ((Stage.atArray schema hint).step ⟨document, none⟩ follow)
        (Translation.array hint items).2 (Translation.array hint items).1) :
    document.Meets answer active current (.facet hint :: schema.facetFindings hint)
      (do
        let objectDone ← (Stage.atObject schema hint).step ⟨document, none⟩ follow
        let arrayDone ← (Stage.atArray schema hint).step ⟨document, none⟩ follow
        return (⟨references, objectDone && arrayDone⟩ : Resolution))
      ⟨references, (Translation.facet schema hint properties items).2⟩
      (Translation.facet schema hint properties items).1 := by
  intro state htracks hpart
  simp only [Schema.facetFindings, Translation.facet, htakes, Bool.false_eq_true,
    if_false] at hpart ⊢
  cases hcalled : schema.types.contains .object with
  | true =>
    simp only [hcalled, if_true] at hpart ⊢
    refine .bind ((hobject hcalled state htracks hpart).mono ?_)
    rintro _ s ⟨rfl, he⟩
    -- the object has been registered, so that there is nothing to do for an array
    have hknown : s.repository.contains hint = true := by
      rw [Repository.contains_iff, Repository.names, List.mem_map]
      exact ⟨_, (he.built _).2 (.inr (.inl (List.mem_append.2 (.inr (List.mem_singleton_self _))))),
        rfl⟩
    refine .bind_ok (registerOnce_apply (.inr hknown)) (.of_ok rfl ⟨?_, he⟩)
    rw [Bool.and_true]
  | false =>
    simp only [hcalled, Bool.false_eq_true, if_false] at hpart ⊢
    refine .bind_ok (registerOnce_apply (.inl hcalled)) ?_
    cases hcalled' : schema.types.contains .array with
    | true =>
      simp only [hcalled', if_true] at hpart ⊢
      refine .bind ((harray hcalled' state htracks hpart).mono ?_)
      rintro _ s ⟨rfl, he⟩
      exact .of_ok rfl ⟨rfl, he⟩
    | false =>
      simp only [hcalled', Bool.false_eq_true, if_false] at hpart ⊢
      refine .bind_ok (registerOnce_apply (.inl hcalled')) (.of_ok rfl ⟨rfl, ?_⟩)
      refine (Effect.refl htracks).widen (List.nil_subset _) fun finding hf => ?_
      obtain rfl := List.mem_singleton.1 hf
      exact .inr trivial

/-- Primitive types are registered. -/
theorem meets_primitives (kinds : List PrimitiveKind) :
    document.Meets answer active current [] (registerPrimitives ⟨document, none⟩ kinds) ()
      (kinds.map .primitive) :=
  fun _ htracks _ => .of_ok (registerPrimitives_apply _ _ _)
    ⟨rfl, .registerPrimitives htracks h.distinct kinds⟩

/-- The enumeration of a schema is registered. -/
theorem meets_enumeration (schema : Schema) (hint : ModelName) (nullable : Bool) :
    document.Meets answer active current (((schema.enumerations hint).map Model.name).map .facet)
      (registerEnumeration ⟨document, none⟩ (schema.typesIn nullable) schema.literals hint)
      ((schema.enumerations hint).map Model.name) (schema.enumerations hint) := by
  have htext : (schema.typesIn nullable).contains .string = schema.types.contains .string := by
    cases nullable <;> simp [Schema.typesIn]
  rw [registerEnumeration, Schema.enumerations, htext]
  split
  · exact Meets.map h.isActive (Meets.register h.distinct h.isActive _) (.pure _)
  · exact .pure _

omit h in
/-- The names of enumerations, if one of them is that of the schema. -/
theorem names_of_takesHint {schema : Schema} {hint : ModelName}
    (htakes : schema.takesHint hint = true) :
    (schema.enumerations hint).map Model.name = [hint] := by
  rw [Schema.takesHint, List.contains_iff_mem] at htakes
  unfold Schema.enumerations at htakes ⊢
  split at htakes
  · next hcalled =>
    rw [if_pos hcalled]
    rw [List.map_singleton, List.mem_singleton] at htakes
    rw [List.map_singleton, ← htakes]
  · cases htakes

omit h in
/-- The names of enumerations, if none of them is that of the schema. -/
theorem ownEnumerations_of_not_takesHint {schema : Schema} {hint : ModelName}
    (htakes : schema.takesHint hint = false) :
    schema.ownEnumerations hint = ((schema.enumerations hint).map Model.name).map .facet := by
  rw [Schema.ownEnumerations, List.filter_eq_self.2]
  intro name hname
  rw [decide_eq_true_eq]
  rintro rfl
  rw [Schema.takesHint, List.contains_iff_mem.2 hname] at htakes
  cases htakes

/-- A schema with types is resolved to its translation, if its object and its array are when its
enumeration leaves the name free. -/
theorem meets_typed {schema : Schema} {hint : ModelName} {nullable : Bool}
    {properties : List (String × Translation)} {items : Option Translation}
    (hshape : schema.composition? = none) (htypes : schema.types.isEmpty = false)
    (hfacets : ∀ references, schema.takesHint hint = false →
      document.Meets answer active current (.facet hint :: schema.facetFindings hint)
        (do
          let objectDone ← (Stage.atObject schema hint).step ⟨document, none⟩ follow
          let arrayDone ← (Stage.atArray schema hint).step ⟨document, none⟩ follow
          return (⟨references, objectDone && arrayDone⟩ : Resolution))
        ⟨references, (Translation.facet schema hint properties items).2⟩
        (Translation.facet schema hint properties items).1) :
    document.Meets answer active current (schema.findings hint)
      (resolveSchema ⟨document, none⟩ follow schema hint nullable)
      (Translation.typed schema hint nullable properties items).resolution
      (Translation.typed schema hint nullable properties items).models := by
  rw [resolveSchema_of_types _ _ hshape htypes, findings_of_types hshape htypes]
  have hprimitives := meets_primitives h (schema.typesIn nullable).primitives
  have henumeration := meets_enumeration h schema hint nullable
  have hmodels : (Translation.typed schema hint nullable properties items).models = _ :=
    List.append_assoc _ _ _
  rw [hmodels]
  cases htakes : schema.takesHint hint with
  | false =>
    rw [ownEnumerations_of_not_takesHint htakes]
    exact Meets.perm (Meets.bind h.isActive hprimitives
      (Meets.bind h.isActive henumeration (hfacets _ htakes))) List.perm_middle
  | true =>
    have hnames := names_of_takesHint htakes
    have hfindings : .facet hint :: (schema.ownEnumerations hint ++ schema.facetFindings hint) =
        ((schema.enumerations hint).map Model.name).map Finding.facet := by
      simp [Schema.ownEnumerations, Schema.facetFindings, hnames, htakes]
    rw [hfindings]
    refine Meets.bind h.isActive hprimitives (fun state htracks hpart => ?_)
    refine .bind ((henumeration state htracks hpart).mono ?_)
    rintro _ s ⟨rfl, he⟩
    -- the name is taken, so that there is nothing to do for an object or an array
    have hknown : s.repository.contains hint = true := by
      have hmem : hint ∈ (schema.enumerations hint).map Model.name := by simp [hnames]
      obtain ⟨model, hmodel, hname⟩ := List.mem_map.1 hmem
      rw [Repository.contains_iff, Repository.names, List.mem_map]
      exact ⟨model, (he.built model).2 (.inr (.inl hmodel)), hname⟩
    refine .bind_ok (registerOnce_apply (.inr hknown)) ?_
    refine .bind_ok (registerOnce_apply (.inr hknown)) (.of_ok rfl ?_)
    simp only [Translation.typed, Translation.facet, htakes, if_true, List.append_nil]
    exact ⟨rfl, he⟩

/-- **The walk of a schema carries out its translation**, if references are followed to what they
denote.

**Proof sketch.** Induction on the parts of schemas. The findings of a part are met before those of
the parts after it, whose names stay free meanwhile; so no model is left out because its name is
known. -/
theorem meets_schema (schema : Schema) (hint : ModelName) (nullable : Bool) :
    document.Meets answer active current (schema.findings hint)
      (resolveSchema ⟨document, none⟩ follow schema hint nullable)
      (translateSchema document (document.follow answer current) schema hint nullable).resolution
      (translateSchema document (document.follow answer current) schema hint nullable).models := by
  refine (Schema.induction
    (fun node => ∀ hint nullable, document.Meets answer active current (node.findings hint)
      (resolveNode ⟨document, none⟩ follow node hint nullable)
      (translateNode document (document.follow answer current) node hint nullable).resolution
      (translateNode document (document.follow answer current) node hint nullable).models)
    (fun schema => ∀ hint nullable, document.Meets answer active current (schema.findings hint)
      (resolveSchema ⟨document, none⟩ follow schema hint nullable)
      (translateSchema document (document.follow answer current) schema hint nullable).resolution
      (translateSchema document (document.follow answer current) schema hint nullable).models)
    (fun members => ∀ offered hint index result,
      document.Meets answer active current (memberFindings members hint index)
        (resolveMembers ⟨document, none⟩ follow offered members hint index result)
        (some (Translation.gatherMembers result
          (translateMembers document (document.follow answer current) offered members hint index)))
        ((translateMembers document (document.follow answer current) offered members hint
          index).flatMap Translation.models))
    (fun properties => ∀ required hint result,
      document.Meets answer active current (propertyFindings properties hint)
        (resolveProperties ⟨document, none⟩ follow required properties hint result)
        (Translation.gatherProperties required result
          (translateProperties document (document.follow answer current) properties hint))
        ((translateProperties document (document.follow answer current) properties hint).flatMap
          fun property => property.2.models))
    (fun items => ∀ hint,
      document.Meets answer active current (.facet hint :: itemFindings items hint)
        (resolveItems ⟨document, none⟩ follow items hint)
        (Translation.array hint
          (translateItems document (document.follow answer current) items hint)).2
        (Translation.array hint
          (translateItems document (document.follow answer current) items hint)).1)
    ?reference ?inline ?composed ?untyped ?typed ?noMembers ?nextMember ?noProperties
    ?nextProperty ?noItems ?anyItems ?items).2.1 schema hint nullable
  case reference => exact fun target hint nullable => meets_reference h target hint nullable
  case inline =>
    intro schema ih hint nullable state htracks hpart
    rw [resolveNode]
    exact .unlessCancelled htracks.running (ih hint nullable state htracks hpart)
  case composed =>
    intro schema kind members hshape ih hint nullable
    rw [translateSchema_of_composition hshape]
    exact meets_composition h hshape (ih _ hint 0 {})
  case untyped =>
    intro schema hshape htypes hint nullable
    rw [translateSchema_of_untyped hshape htypes]
    exact meets_untyped h hshape htypes
  case typed =>
    intro schema hshape htypes ihProperties ihItems hint nullable
    rw [translateSchema_of_types hshape htypes]
    refine meets_typed h hshape htypes fun references htakes => meets_facets references htakes
      (fun hcalled => meets_object h hcalled (ihProperties _ hint {})) fun hcalled => ?_
    rw [Stage.step, hcalled]
    exact Meets.registerOnce (ihItems hint)
  case noMembers => exact fun _ _ _ _ => .pure _
  case nextMember =>
    intro member rest ihFirst ihRest offered hint index result
    rw [resolveMembers]
    exact Meets.bind_nil h.isActive .isCancelled
      (Meets.bind h.isActive (ihFirst _ _) (ihRest _ _ _ _))
  case noProperties => exact fun _ _ _ => .pure _
  case nextProperty =>
    intro name node rest ihFirst ihRest required hint result
    rw [resolveProperties]
    exact Meets.bind h.isActive (ihFirst _ _) (ihRest _ _ _)
  case noItems =>
    intro hint
    exact Meets.cons (Meets.cons (Meets.map h.isActive (.record _) (.pure false)) trivial) trivial
  case anyItems =>
    intro allowed hint
    exact Meets.cons (Meets.cons (Meets.map h.isActive (.record _) (.pure false)) trivial) trivial
  case items =>
    intro node ih hint
    rw [resolveItems, translateItems, models_array_some]
    exact Meets.lastly h.isActive (ih _ _) (meets_registerArray h hint _)

end Walk

end Document

end ApiCatalog
