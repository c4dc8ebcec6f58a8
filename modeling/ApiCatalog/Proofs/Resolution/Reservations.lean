import ApiCatalog.Proofs.Document.Declarations
import ApiCatalog.Proofs.Resolution.Reports
import ApiCatalog.Proofs.Translation.Tracking

set_option autoImplicit false

/-!
# Components that have their names for themselves

All models share one space of names, and the first registration of a name is final. The id of a
component is reserved for it if no other schema that is resolved has a part of that name. What is
registered under the id of such a component, if it is an object, is then the object that its own
schema describes.

## Main definitions

* `Document.Exclusive`: no schema but that of a component has a part whose name is the component's
  id.
* `Schema.Describes`: the properties of an object are those that a schema declares.
* `ResolverState.Reserves`: under the id of a component there is its own object, or nothing.
* `Stage.Spares`: a stage has no part of a certain name, unless it is the component's own.

## Main results

* `ApiCatalog.length_of_mem_findings`: the names of the parts of a schema are not shorter than
  that of the schema.
* `ApiCatalog.Runs.reserves`: a run that spares a name reserves it.
-/

namespace ApiCatalog

/-! ## Names of parts -/

section Lengths

variable {hint name : ModelName}

/-- The name of a property is longer than that of the object. -/
theorem length_lt_property (hint : ModelName) (name : String) :
    hint.length < (Naming.property hint name).length := by
  simp only [Naming.property, String.length_append]
  have hdot : (".").length = 1 := rfl
  omega

/-- The name of a member is longer than that of the composition. -/
theorem length_lt_member (hint : ModelName) (index : Nat) :
    hint.length < (Naming.member hint index).length := by
  simp only [Naming.member, String.length_append]
  have hhash : ("#").length = 1 := rfl
  omega

/-- The name of items is longer than that of the array. -/
theorem length_lt_arrayItem (hint : ModelName) : hint.length < (Naming.arrayItem hint).length := by
  simp only [Naming.arrayItem, String.length_append]
  have hbrackets : ("[]").length = 2 := rfl
  omega

/-- The name of an enumeration is not shorter than that of its schema. -/
theorem length_le_of_mem_ownEnumerations {schema : Schema}
    (h : .facet name ∈ schema.ownEnumerations hint) : hint.length ≤ name.length := by
  obtain ⟨other, hother, heq⟩ := List.mem_map.1 h
  cases heq
  obtain ⟨model, hmodel, rfl⟩ := List.mem_map.1 (List.mem_filter.1 hother).1
  unfold Schema.enumerations at hmodel
  split at hmodel
  · obtain rfl := List.mem_singleton.1 hmodel
    show hint.length ≤ (Naming.enumeration hint _).length
    unfold Naming.enumeration
    split
    · rw [String.length_append]
      exact Nat.le_add_right _ _
    · exact Nat.le_refl _
  · cases hmodel

/-- A union has no name. -/
theorem facet_not_mem_unionFindings (kind : CompositionKind) (members : List Node) :
    .facet name ∉ unionFindings kind members := by
  cases kind <;> simp [unionFindings]

/-- **The names of the parts of a schema are not shorter than that of the schema**, and those of its
properties are longer.

**Proof sketch.** Induction on the parts of schemas: each of them extends the name of what it is a
part of. -/
theorem length_of_mem_findings :
    (∀ node : Node, ∀ hint name, .facet name ∈ node.findings hint → hint.length ≤ name.length) ∧
    (∀ properties : List (String × Node), ∀ hint name,
      .facet name ∈ propertyFindings properties hint → hint.length < name.length) := by
  have hall := Schema.induction
    (fun node => ∀ hint name, .facet name ∈ node.findings hint → hint.length ≤ name.length)
    (fun schema => ∀ hint name, .facet name ∈ schema.findings hint → hint.length ≤ name.length)
    (fun members => ∀ index hint name, .facet name ∈ memberFindings members hint index →
      hint.length < name.length)
    (fun properties => ∀ hint name, .facet name ∈ propertyFindings properties hint →
      hint.length < name.length)
    (fun items => ∀ hint name, .facet name ∈ itemFindings items hint →
      hint.length < name.length)
    ?reference ?inline ?composed ?untyped ?typed ?noMembers ?nextMember ?noProperties
    ?nextProperty ?noItems ?anyItems ?items
  case reference => exact fun target hint name h => by simp [Node.findings] at h
  case inline => exact fun schema ih hint name h => ih hint name (by rwa [Node.findings] at h)
  case composed =>
    intro schema kind members hshape ih hint name h
    rw [findings_of_composition hshape] at h
    rcases List.mem_cons.1 h with h | h
    · cases h
      exact Nat.le_refl _
    · rcases List.mem_append.1 h with h | h
      · exact absurd h (facet_not_mem_unionFindings kind members)
      · exact Nat.le_of_lt (ih 0 hint name h)
  case untyped =>
    intro schema hshape htypes hint name h
    rw [findings_of_untyped hshape htypes] at h
    rcases List.mem_cons.1 h with h | h
    · cases h
      exact Nat.le_refl _
    · simp at h
  case typed =>
    intro schema hshape htypes ihProperties ihItems hint name h
    rw [findings_of_types hshape htypes] at h
    rcases List.mem_cons.1 h with h | h
    · cases h
      exact Nat.le_refl _
    · rcases List.mem_append.1 h with h | h
      · exact length_le_of_mem_ownEnumerations h
      · rcases mem_facetFindings h with h | h
        · exact Nat.le_of_lt (ihProperties hint name h)
        · exact Nat.le_of_lt (ihItems hint name h)
  case noMembers => exact fun index hint name h => by simp [memberFindings] at h
  case nextMember =>
    intro member rest ihFirst ihRest index hint name h
    rw [memberFindings] at h
    rcases List.mem_append.1 h with h | h
    · exact Nat.lt_of_lt_of_le (length_lt_member hint index) (ihFirst _ name h)
    · exact ihRest _ hint name h
  case noProperties => exact fun hint name h => by simp [propertyFindings] at h
  case nextProperty =>
    intro key node rest ihFirst ihRest hint name h
    rw [propertyFindings] at h
    rcases List.mem_append.1 h with h | h
    · exact Nat.lt_of_lt_of_le (length_lt_property hint key) (ihFirst _ name h)
    · exact ihRest hint name h
  case noItems => exact fun hint name h => by simp [itemFindings] at h
  case anyItems => exact fun allowed hint name h => by simp [itemFindings] at h
  case items =>
    intro node ih hint name h
    exact Nat.lt_of_lt_of_le (length_lt_arrayItem hint) (ih _ name (by rwa [itemFindings] at h))
  exact ⟨hall.1, hall.2.2.2.1⟩

/-- The properties of an object do not have its name. -/
theorem facet_not_mem_propertyFindings (properties : List (String × Node)) (hint : ModelName) :
    .facet hint ∉ propertyFindings properties hint :=
  fun h => Nat.lt_irrefl _ (length_of_mem_findings.2 properties hint hint h)

end Lengths

/-! ## Objects as their schemas describe them -/

/-- Properties are those of certain names; each has the name that it stands under, and is required
exactly if it is listed so. -/
structure Describes (required names : List String) (properties : OrderedMap String Property) :
    Prop where
  contains_iff : ∀ name, properties.contains name = true ↔ name ∈ names
  property : ∀ name property, properties.find? name = some property →
    property.name = name ∧ property.modifier = .ofRequired (required.contains name)

/-- The properties of an object are those that a schema declares. -/
def Schema.Describes (schema : Schema) (properties : OrderedMap String Property) : Prop :=
  ApiCatalog.Describes schema.required (schema.properties.map Prod.fst) properties

/-- No names describe no properties. -/
theorem Describes.empty (required : List String) : Describes required [] ∅ := by
  refine ⟨fun name => ?_, fun name property hfind => nomatch hfind⟩
  simp [OrderedMap.contains_iff, show (∅ : OrderedMap String Property).keys = [] from rfl]

/-- One more property that was resolved is described by its name. -/
theorem Describes.add {required names : List String} {result : PropertyResult}
    (h : Describes required names result.properties) (name : String) {resolution : Resolution}
    (hsucceeded : resolution.succeeded = true) :
    Describes required (names ++ [name]) (result.add required name resolution).properties := by
  have hadd : (result.add required name resolution).properties =
      result.properties.insert name
        ⟨name, resolution.references, .ofRequired (required.contains name)⟩ := by
    rw [PropertyResult.add, if_pos hsucceeded]
  rw [hadd]
  refine ⟨fun other => ?_, fun other property hfind => ?_⟩
  · have hold := h.contains_iff other
    simp only [OrderedMap.contains, OrderedMap.find?_insert, List.mem_append,
      List.mem_singleton] at hold ⊢
    by_cases hname : name = other
    · simp [hname]
    · have hname' : ¬ other = name := fun heq => hname heq.symm
      simp [hname, hname', hold]
  · rw [OrderedMap.find?_insert] at hfind
    by_cases hname : name = other
    · rw [if_pos hname] at hfind
      cases hfind
      subst hname
      exact ⟨rfl, rfl⟩
    · rw [if_neg hname] at hfind
      exact h.property other property hfind

/-- Properties that are all resolved follow on properties that were. -/
theorem Runs.succeeded_of_properties {context : Context} {active : List ModelName}
    {required : List String} {properties : List (String × Node)} {hint : ModelName}
    {result answer : PropertyResult} {state state' : ResolverState}
    (h : Runs context active (.atProperties required properties hint result) state answer state')
    (hsucceeded : answer.succeeded = true) : result.succeeded = true := by
  induction properties generalizing result state with
  | nil =>
    cases h
    exact hsucceeded
  | cons entry rest ih =>
    cases h with
    | nextProperty _ hrest =>
      have hboth := ih hrest
      rw [PropertyResult.succeeded_add, Bool.and_eq_true] at hboth
      exact hboth.1

/-- **Properties that are all resolved are those that are declared**, after others. -/
theorem Runs.describes {context : Context} {active : List ModelName} {required : List String}
    {properties : List (String × Node)} {hint : ModelName} {result answer : PropertyResult}
    {state state' : ResolverState} {names : List String}
    (h : Runs context active (.atProperties required properties hint result) state answer state')
    (hsucceeded : answer.succeeded = true) (hnames : Describes required names result.properties) :
    Describes required (names ++ properties.map Prod.fst) answer.properties := by
  induction properties generalizing result state names with
  | nil =>
    cases h
    simpa using hnames
  | cons entry rest ih =>
    cases h with
    | nextProperty _ hrest =>
      have hboth := hrest.succeeded_of_properties hsucceeded
      rw [PropertyResult.succeeded_add, Bool.and_eq_true] at hboth
      have hall := ih hrest (hnames.add _ hboth.2)
      rwa [List.append_assoc] at hall

/-! ## Reserved names -/

/-- The id of a component is reserved for it: it is not the name of a primitive type, and no schema
that is resolved has a part of that name but the component's own. -/
structure Document.Exclusive (document : Document) (id : String) : Prop where
  primitive : ∀ kind : PrimitiveKind, kind.canonicalName ≠ id
  requests : ∀ request ∈ document.requests, .facet id ∉ request.2.findings request.1
  components : ∀ other schema, other ≠ id → document.StandsFor other schema →
    .facet id ∉ schema.findings other

/-- Under the id of a component there is the object that its schema describes, unless a problem was
met; and the model is there if the component is finished. -/
structure ResolverState.Reserves (state : ResolverState) (id : String) (own : Schema) : Prop where
  models : ∀ model ∈ state.repository.models, model.name = id →
    state.Reports ∨ ∃ properties, model = .object id properties ∧ own.Describes properties
  memo : ∀ resolution, state.memo.find? id = some resolution →
    state.repository.contains id = true

namespace ResolverState.Reserves

variable {state state' : ResolverState} {id : String} {own : Schema}

/-- A name stays reserved while models of other names are added and the memo is as it was. -/
theorem mono (h : state.Reserves id own) (hgrows : state.Grows state')
    (hmodels : ∀ model ∈ state'.repository.models, model.name = id →
      model ∈ state.repository.models)
    (hmemo : state'.memo = state.memo) : state'.Reserves id own where
  models := fun model hmodel hname =>
    (h.models model (hmodels model hmodel hname) hname).imp_left fun hreports =>
      hreports.mono hgrows
  memo := fun resolution hfind => hgrows.contains (h.memo resolution (hmemo ▸ hfind))

/-- A diagnostic is not in the way. -/
theorem record (h : state.Reserves id own) (diagnostic : Diagnostic) :
    (state.record diagnostic).Reserves id own :=
  h.mono (.record _ _) (fun _ hmodel _ => hmodel) rfl

/-- A model of another name is not in the way. -/
theorem register {cancelAt : Option Nat} {model : Model} (h : state.Reserves id own)
    (hne : model.name ≠ id) : (state.register cancelAt model).Reserves id own := by
  refine h.mono (.register _ _ _) (fun other hother hname => ?_) rfl
  rcases Repository.mem_models_register.1 hother with hother | ⟨rfl, -⟩
  · exact hother
  · exact absurd hname hne

/-- Models of other names are not in the way. -/
theorem registerAll {cancelAt : Option Nat} {models : List Model} (h : state.Reserves id own)
    (hne : ∀ model ∈ models, model.name ≠ id) :
    (state.registerAll cancelAt models).Reserves id own :=
  maintains_registerAll (fun later => later.Reserves id own)
    (fun model hmodel hreserves => hreserves.register (hne model hmodel)) h

/-- The component's own object may be registered. -/
theorem registerOwn {cancelAt : Option Nat} {properties : OrderedMap String Property}
    (h : state.Reserves id own) (hown : state.Reports ∨ own.Describes properties) :
    (state.register cancelAt (.object id properties)).Reserves id own where
  models := by
    intro other hother hname
    rcases Repository.mem_models_register.1 hother with hold | ⟨rfl, -⟩
    · exact (h.models other hold hname).imp_left fun hreports => hreports.mono (.register _ _ _)
    · exact hown.imp (fun hreports => hreports.mono (.register _ _ _))
        fun hdescribes => ⟨properties, rfl, hdescribes⟩
  memo := fun resolution hfind =>
    (Grows.register cancelAt state (.object id properties)).contains (h.memo resolution hfind)

/-- A component may be finished; the one in question only if it is registered. -/
theorem memoise {other : String} {resolution : Resolution} (h : state.Reserves id own)
    (hother : other = id → state.repository.contains id = true) :
    (state.memoise other resolution).Reserves id own where
  models := by
    intro model hmodel hname
    rw [repository_memoise] at hmodel
    exact (h.models model hmodel hname).imp_left fun hreports => hreports.memoise _ _
  memo := by
    intro found hfound
    rw [repository_memoise]
    rcases find?_memoise_cases hfound with hold | ⟨rfl, -⟩
    · exact h.memo found hold
    · exact hother rfl

end ResolverState.Reserves

/-- A stage has no part of a certain name, unless it is that of the component's own schema. The
object or the array of a schema is not looked at if its name is known. -/
def Stage.Spares (id : String) (own : Schema) (state : ResolverState) {kind : StageKind} :
    Stage kind → Prop
  | .atNode node hint _ => .facet id ∉ node.findings hint ∨ (node = .inline own ∧ hint = id)
  | .atSchema schema hint _ => .facet id ∉ schema.findings hint ∨ (schema = own ∧ hint = id)
  | .atMembers _ members hint index _ => .facet id ∉ memberFindings members hint index
  | .atProperties _ properties hint _ => .facet id ∉ propertyFindings properties hint
  | .atObject schema hint => schema.types.contains .object = true →
    state.repository.contains hint = false →
    .facet id ∉ propertyFindings schema.properties hint ∧ (hint = id → schema = own)
  | .atArray schema hint => schema.types.contains .array = true →
    state.repository.contains hint = false →
    .facet id ∉ itemFindings schema.items hint ∧ hint ≠ id

/-- An object that is called for is there afterwards. -/
theorem Runs.contains_of_atObject {context : Context} {active : List ModelName} {schema : Schema}
    {hint : ModelName} {state state' : ResolverState} {done : Bool}
    (h : Runs context active (.atObject schema hint) state done state')
    (hend : state'.cancelled = false) (hcalled : schema.types.contains .object = true) :
    state'.repository.contains hint = true := by
  cases h with
  | noObject hnot =>
    rw [hcalled] at hnot
    cases hnot
  | knownObject _ hknown => exact hknown
  | lostObject _ _ _ hcancelled =>
    rw [hend] at hcancelled
    cases hcancelled
  | object => exact Repository.contains_register_self

/-- A schema whose only type is object, without combinator. -/
structure Schema.IsObject (schema : Schema) : Prop where
  composition : schema.composition? = none
  types : schema.types = .ofList [.object]

/-- The enumeration of a schema has the name of the schema, or one of its own. -/
theorem name_of_mem_enumerations {schema : Schema} {hint : ModelName} {model : Model}
    (h : model ∈ schema.enumerations hint) :
    model.name = hint ∨ .facet model.name ∈ schema.ownEnumerations hint := by
  by_cases hname : model.name = hint
  · exact .inl hname
  · refine .inr (List.mem_map.2 ⟨model.name, List.mem_filter.2 ⟨?_, by simpa using hname⟩, rfl⟩)
    exact List.mem_map.2 ⟨model, h, rfl⟩

section Flat

variable {schema own : Schema} {hint : ModelName} {nullable : Bool} {id : String}

/-- A schema that spares a name, and is resolved by its types, registers nothing of that name at
once. -/
theorem name_ne_of_mem_flatModels (hprimitive : ∀ kind : PrimitiveKind, kind.canonicalName ≠ id)
    (hown : own.IsObject) (hshape : schema.composition? = none)
    (htypes : schema.types.isEmpty = false)
    (hspares : .facet id ∉ schema.findings hint ∨ (schema = own ∧ hint = id)) {model : Model}
    (hmodel : model ∈ schema.flatModels hint nullable) : model.name ≠ id := by
  rcases List.mem_append.1 hmodel with hmodel | hmodel
  · obtain ⟨kind, -, rfl⟩ := List.mem_map.1 hmodel
    exact hprimitive kind
  · rcases hspares with hspares | ⟨rfl, rfl⟩
    · rw [findings_of_types hshape htypes] at hspares
      rintro rfl
      refine hspares ?_
      rcases name_of_mem_enumerations hmodel with hname | hname
      · rw [hname]
        exact List.mem_cons_self
      · exact List.mem_cons_of_mem _ (List.mem_append.2 (.inl hname))
    · simp [Schema.enumerations, hown.types, TypeSet.contains_ofList] at hmodel

/-- If the enumeration of a schema has its name, the name is known once the schema's models that
have no parts are registered. -/
theorem contains_of_takesHint (htakes : schema.takesHint hint = true) (cancelAt : Option Nat)
    (state : ResolverState) :
    (state.registerAll cancelAt (schema.flatModels hint nullable)).repository.contains hint =
      true := by
  rw [Schema.takesHint, List.contains_iff_mem] at htakes
  obtain ⟨model, hmodel, hname⟩ := List.mem_map.1 htakes
  have hflat : model ∈ schema.flatModels hint nullable := List.mem_append.2 (.inr hmodel)
  have hcontains : (state.registerAll cancelAt _).repository.contains model.name = true :=
    contains_registerAll hflat
  rwa [hname] at hcontains

/-- If a schema spares a name, then so does its object, after its other models are registered. -/
theorem spares_atObject (hshape : schema.composition? = none)
    (htypes : schema.types.isEmpty = false)
    (hspares : .facet id ∉ schema.findings hint ∨ (schema = own ∧ hint = id))
    (cancelAt : Option Nat) (state : ResolverState) :
    (Stage.atObject schema hint).Spares id own
      (state.registerAll cancelAt (schema.flatModels hint nullable)) := by
  intro hcalled hunknown
  rcases hspares with hspares | ⟨rfl, rfl⟩
  · rw [findings_of_types hshape htypes] at hspares
    have hne : hint ≠ id := fun heq => hspares (heq ▸ List.mem_cons_self)
    refine ⟨fun hmem => hspares (List.mem_cons_of_mem _ (List.mem_append.2 (.inr ?_))),
      fun heq => absurd heq hne⟩
    unfold Schema.facetFindings
    split
    · next htakes =>
      rw [contains_of_takesHint htakes] at hunknown
      cases hunknown
    · exact hmem
  · exact ⟨facet_not_mem_propertyFindings _ _, fun _ => rfl⟩

/-- If a schema spares a name, then so does its array, after its object is resolved. -/
theorem spares_atArray {context : Context} {active : List ModelName} {state state' : ResolverState}
    {done : Bool} (hown : own.IsObject) (hshape : schema.composition? = none)
    (htypes : schema.types.isEmpty = false)
    (hspares : .facet id ∉ schema.findings hint ∨ (schema = own ∧ hint = id))
    (hobject : Runs context active (.atObject schema hint)
      (state.registerAll context.cancelAt (schema.flatModels hint nullable)) done state')
    (hend : state'.cancelled = false) : (Stage.atArray schema hint).Spares id own state' := by
  intro hcalled hunknown
  rcases hspares with hspares | ⟨rfl, rfl⟩
  · rw [findings_of_types hshape htypes] at hspares
    refine ⟨fun hmem => hspares (List.mem_cons_of_mem _ (List.mem_append.2 (.inr ?_))),
      fun heq => hspares (heq ▸ List.mem_cons_self)⟩
    unfold Schema.facetFindings
    split
    · next htakes =>
      rw [hobject.grows.contains (contains_of_takesHint htakes _ _)] at hunknown
      cases hunknown
    · split
      · next hobjectCalled =>
        rw [hobject.contains_of_atObject hend hobjectCalled] at hunknown
        cases hunknown
      · exact hmem
  · simp [hown.types, TypeSet.contains_ofList] at hcalled

end Flat

/-- **A run that spares a name reserves it**: under the id of a component that has its name for
itself, only the object that its schema describes is registered, or a problem was met.

**Proof sketch.** Induction on the run. No stage registers a model of that name but the one at the
component's own schema, which comes to its object at once: the parts of an object have longer names.
If not all of the object's properties were resolved, that was reported. -/
theorem Runs.reserves {context : Context} {kind : StageKind} {active : List ModelName}
    {stage : Stage kind} {state state' : ResolverState} {answer : kind.Answer} {id : String}
    {own : Schema} (hown : own.IsObject) (hexclusive : context.document.Exclusive id)
    (hfind : context.document.schemas.find? id = some (.inline own))
    (h : Runs context active stage state answer state') (hend : state'.cancelled = false)
    (haccounted : state.Accounted) (hspares : stage.Spares id own state)
    (hreserves : state.Reserves id own) : state'.Reserves id own := by
  have hcarries : own.HasParts := .inr (.inl (by simp [hown.types, TypeSet.contains_ofList]))
  induction h with
  | cancelled | finished | busy | allMembers | membersLeft | allProperties | noObject | knownObject
  | noArray | knownArray => exact hreserves
  | refused | missing | untyped | noItems | anyItems => exact hreserves.record _
  | inline _ _ ih =>
    refine ih hend haccounted (hspares.imp (fun hnot => ?_) fun heq => ?_) hreserves
    · rwa [Node.findings] at hnot
    · exact ⟨OrReference.inline.inj heq.1, heq.2⟩
  | @entered active target hint nullable entered schema state resolution state' _ hname _ _ hfound
      hschema ih =>
    rw [ResolverState.cancelled_memoise] at hend
    have hstands := standsFor_of_findSchema hname hfound
    have hspares' : (Stage.atSchema schema entered false).Spares id own state := by
      by_cases heq : entered = id
      · subst heq
        exact .inr ⟨hstands.unique (.inPlace hfind), rfl⟩
      · exact .inl (hexclusive.components entered schema heq hstands)
    refine (ih hend haccounted hspares' hreserves).memoise fun heq => ?_
    subst heq
    rw [hstands.unique (.inPlace hfind)] at hschema
    rcases hschema.registers hend hcarries with hknown | ⟨-, hobject, -⟩
    · exact hknown
    · simp [hown.types, TypeSet.contains_ofList] at hobject
  | composed hshape _ _ ih =>
    have hnot := hspares.resolve_right fun heq => by
      rw [heq.1, hown.composition] at hshape
      cases hshape
    rw [findings_of_composition hshape] at hnot
    refine (ih ((ResolverState.Grows.register _ _ _).not_cancelled hend) haccounted (fun hmem => ?_)
      hreserves).register fun heq => ?_
    · exact hnot (List.mem_cons_of_mem _ (List.mem_append.2 (.inr hmem)))
    · exact hnot (heq ▸ List.mem_cons_self)
  | abandoned _ _ hmembers =>
    rw [hmembers.cancelled_of_none] at hend
    cases hend
  | @typed active schema hint nullable state objectDone state₁ arrayDone state₂ hshape htypes
      hobject harray ihObject ihArray =>
    have hend₁ := harray.grows.not_cancelled hend
    have haccounted₀ :
        (state.registerAll context.cancelAt (schema.flatModels hint nullable)).Accounted :=
      haccounted.mono (.registerAll _ _ _) (ResolverState.memo_registerAll _ _ _)
    have hreserves₀ :
        (state.registerAll context.cancelAt (schema.flatModels hint nullable)).Reserves id own :=
      hreserves.registerAll fun _ =>
        name_ne_of_mem_flatModels hexclusive.primitive hown hshape htypes hspares
    exact ihArray hend (hobject.accounts hend₁ trivial haccounted₀).1
      (spares_atArray hown hshape htypes hspares hobject hend₁)
      (ihObject hend₁ haccounted₀ (spares_atObject hshape htypes hspares _ _) hreserves₀)
  | nextMember _ hfirst hrest ihFirst ihRest =>
    have hend₁ := hrest.grows.not_cancelled hend
    rw [Stage.Spares, memberFindings, List.mem_append, not_or] at hspares
    exact ihRest hend (hfirst.accounts hend₁ trivial haccounted).1 hspares.2
      (ihFirst hend₁ haccounted (.inl hspares.1) hreserves)
  | nextProperty hfirst hrest ihFirst ihRest =>
    have hend₁ := hrest.grows.not_cancelled hend
    rw [Stage.Spares, propertyFindings, List.mem_append, not_or] at hspares
    exact ihRest hend (hfirst.accounts hend₁ trivial haccounted).1 hspares.2
      (ihFirst hend₁ haccounted (.inl hspares.1) hreserves)
  | lostObject _ _ _ hcancelled =>
    rw [hcancelled] at hend
    cases hend
  | @object active schema hint state result state' hcalled hunknown hproperties hcancelled ih =>
    obtain ⟨hnot, howner⟩ := hspares hcalled hunknown
    have hreserves' := ih hcancelled haccounted hnot hreserves
    by_cases heq : hint = id
    · subst heq
      obtain rfl := howner rfl
      refine hreserves'.registerOwn ?_
      cases hsucceeded : result.succeeded with
      | true => exact .inr (hproperties.describes hsucceeded (.empty _))
      | false =>
        have htallied : (Stage.atProperties schema.required schema.properties hint {}).Tallied
            state := fun h => absurd h Bool.false_ne_true.symm
        exact .inl ((hproperties.accounts hcancelled htallied haccounted).2.2.reported hsucceeded)
    · exact hreserves'.register heq
  | lostArray hcalled hunknown hitems _ _ ih =>
    have hnot := (hspares hcalled hunknown).1
    rw [hitems, itemFindings] at hnot
    exact ih hend haccounted (.inl hnot) hreserves
  | array hcalled hunknown hitems _ _ ih =>
    obtain ⟨hnot, hne⟩ := hspares hcalled hunknown
    rw [hitems, itemFindings] at hnot
    exact (ih ((ResolverState.Grows.register _ _ _).not_cancelled hend) haccounted (.inl hnot)
      hreserves).register hne

end ApiCatalog
