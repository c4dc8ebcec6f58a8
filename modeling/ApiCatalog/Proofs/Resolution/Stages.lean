import ApiCatalog.Proofs.Document.Mentions
import ApiCatalog.Resolution.Component

set_option autoImplicit false

/-!
# Stages of the schema walk

The walk of a schema consists of stages: a schema is taken apart into members, or into an object and
an array, these into properties and items, and so on. A stage is a call of one of the mutually
recursive functions of the walk. This module says what a schema is taken apart into, and what the
steps of the stages come down to.

## Main definitions

* `Schema.composition?`: the combinator that a schema is resolved by, with its members.
* `Schema.flatModels`, `Schema.references`: what a schema with types calls for by itself.
* `ApiCatalog.Stage`: the stages of the walk, by what they answer with.

## Main results

* `Schema.induction`: induction on the parts of schemas.
* `ApiCatalog.resolveSchema_of_composition`, `ApiCatalog.resolveSchema_of_untyped`,
  `ApiCatalog.resolveSchema_of_types`: the walk of a schema by its shape.
-/

namespace ApiCatalog

/-! ## Steps that answer -/

namespace Resolver

variable {α β : Type} {state state' : ResolverState}

/-- A step followed by another answers if both do, one from the state that the other left. -/
theorem bind_eq_ok_iff {x : Resolver α} {f : α → Resolver β} {b : β} :
    (x >>= f) state = .ok b state' ↔ ∃ a s, x state = .ok a s ∧ f a s = .ok b state' := by
  show EStateM.bind x f state = _ ↔ _
  unfold EStateM.bind
  cases x state <;> simp [and_assoc]

/-- An answer leaves the state as it is. -/
@[simp]
theorem pure_apply (a : α) : (pure a : Resolver α) state = .ok a state := rfl

/-- An abort is no answer. -/
@[simp]
theorem throw_apply (abort : Abort) : (throw abort : Resolver α) state = .error abort state := rfl

/-- The state as an answer. -/
@[simp]
theorem get_apply : (get : Resolver ResolverState) state = .ok state state := rfl

/-- The wish to stop, as an answer. -/
@[simp]
theorem isCancelled_apply : Resolver.isCancelled state = .ok state.cancelled state := rfl

/-- Whether a name is registered, as an answer. -/
@[simp]
theorem isKnown_apply (name : ModelName) :
    Resolver.isKnown name state = .ok (state.repository.contains name) state := rfl

/-- The memo, as an answer. -/
@[simp]
theorem finished?_apply (name : ModelName) :
    Resolver.finished? name state = .ok (state.memo.find? name) state := rfl

/-- A value that is there is answered. -/
theorem ofExcept_eq_ok_iff {x : Except Abort α} {a : α} :
    Resolver.ofExcept x state = .ok a state' ↔ x = .ok a ∧ state = state' := by
  cases x <;> simp [Resolver.ofExcept]

end Resolver

/-! ## The shape of a schema -/

namespace Schema

/-- The combinator that a schema is resolved by, with its members: the first list of parts that is
not empty. -/
def composition? (schema : Schema) : Option (CompositionKind × List Node) :=
  if !schema.oneOf.isEmpty then some (.oneOf, schema.oneOf)
  else if !schema.allOf.isEmpty then some (.allOf, schema.allOf)
  else if !schema.anyOf.isEmpty then some (.anyOf, schema.anyOf)
  else none

/-- The types of a schema, with null if its place adds that. -/
def typesIn (schema : Schema) (nullable : Bool) : TypeSet :=
  if nullable then schema.types.insert .null else schema.types

/-- The enumeration of a schema, if it has literals and admits strings. -/
def enumerations (schema : Schema) (hint : ModelName) : List Model :=
  if schema.types.contains .string && !schema.literals.isEmpty then
    [enumerationModel hint schema.literals]
  else []

/-- The models that a schema with types calls for before any of its parts is looked at. -/
def flatModels (schema : Schema) (hint : ModelName) (nullable : Bool) : List Model :=
  (schema.typesIn nullable).primitives.map .primitive ++ schema.enumerations hint

/-- The references to the models of a schema with types. -/
def references (schema : Schema) (hint : ModelName) (nullable : Bool) : List ModelName :=
  typeReferences (schema.typesIn nullable) ((schema.enumerations hint).map Model.name) hint

end Schema

namespace Schema

variable {schema : Schema}

/-- The combinator that a schema is resolved by is the first one with members. -/
theorem composition?_cases {kind : CompositionKind} {members : List Node}
    (h : schema.composition? = some (kind, members)) :
    (schema.oneOf.isEmpty = false ∧ kind = .oneOf ∧ members = schema.oneOf) ∨
    (schema.oneOf.isEmpty = true ∧ schema.allOf.isEmpty = false ∧ kind = .allOf ∧
      members = schema.allOf) ∨
    (schema.oneOf.isEmpty = true ∧ schema.allOf.isEmpty = true ∧ schema.anyOf.isEmpty = false ∧
      kind = .anyOf ∧ members = schema.anyOf) := by
  unfold composition? at h
  cases ho : schema.oneOf.isEmpty <;> cases ha : schema.allOf.isEmpty <;>
    cases hn : schema.anyOf.isEmpty <;> simp [ho, ha, hn] at h <;> simp [h]

/-- A schema without combinator has no members. -/
theorem isEmpty_of_composition?_eq_none (h : schema.composition? = none) :
    schema.oneOf.isEmpty = true ∧ schema.allOf.isEmpty = true ∧ schema.anyOf.isEmpty = true := by
  unfold composition? at h
  cases ho : schema.oneOf.isEmpty <;> cases ha : schema.allOf.isEmpty <;>
    cases hn : schema.anyOf.isEmpty <;> simp [ho, ha, hn] at h ⊢

end Schema

/-- Whether a member of a composition is offered null: only a union can do that. -/
def offersNull (document : Document) (kind : CompositionKind) (members : List Node) :
    Except Abort Bool :=
  match kind with
  | .anyOf => anyAdmitsNull document members
  | .oneOf => .ok false
  | .allOf => .ok false

/-- Registers models one after another. -/
def ResolverState.registerAll (cancelAt : Option Nat) (state : ResolverState)
    (models : List Model) : ResolverState :=
  models.foldl (ResolverState.register cancelAt) state

/-! ## Induction -/

/-- **Induction on the parts of schemas**: a schema has members, or types with properties and
items. -/
theorem Schema.induction (onNode : Node → Prop) (onSchema : Schema → Prop)
    (onMembers : List Node → Prop) (onProperties : List (String × Node) → Prop)
    (onItems : Option (Items Node) → Prop)
    (reference : ∀ target, onNode (.reference target))
    (inline : ∀ schema, onSchema schema → onNode (.inline schema))
    (composed : ∀ schema kind members, schema.composition? = some (kind, members) →
      onMembers members → onSchema schema)
    (untyped : ∀ schema, schema.composition? = none → schema.types.isEmpty = true →
      onSchema schema)
    (typed : ∀ schema, schema.composition? = none → schema.types.isEmpty = false →
      onProperties schema.properties → onItems schema.items → onSchema schema)
    (noMembers : onMembers [])
    (nextMember : ∀ member rest, onNode member → onMembers rest → onMembers (member :: rest))
    (noProperties : onProperties [])
    (nextProperty : ∀ name node rest, onNode node → onProperties rest →
      onProperties ((name, node) :: rest))
    (noItems : onItems none) (anyItems : ∀ allowed, onItems (some (.always allowed)))
    (items : ∀ node, onNode node → onItems (some (.each node))) :
    (∀ node, onNode node) ∧ (∀ schema, onSchema schema) ∧ (∀ items, onItems items) ∧
      (∀ properties, onProperties properties) ∧ ∀ members, onMembers members := by
  refine Node.targets.mutual_induct onNode onSchema onItems onProperties onMembers ?_ noMembers
    nextMember noProperties nextProperty noItems anyItems items reference inline
  intro types oneOf allOf anyOf literals properties required items hone hall hany hproperties hitems
  cases hshape : Schema.composition?
      ⟨types, oneOf, allOf, anyOf, literals, properties, required, items⟩ with
  | none =>
    cases htypes : types.isEmpty with
    | true => exact untyped _ hshape htypes
    | false => exact typed _ hshape htypes hproperties hitems
  | some composition =>
    obtain ⟨kind, members⟩ := composition
    refine composed _ kind members hshape ?_
    rcases composition?_cases hshape with ⟨-, -, rfl⟩ | ⟨-, -, -, rfl⟩ | ⟨-, -, -, -, rfl⟩
    · exact hone
    · exact hall
    · exact hany

/-! ## Stages -/

/-- What a stage of the walk answers with. -/
inductive StageKind where
  | resolution
  | members
  | properties
  | facet
deriving DecidableEq, Repr

/-- The answers of the stages of a kind. -/
abbrev StageKind.Answer : StageKind → Type
  | .resolution => Resolution
  | .members => Option MemberResult
  | .properties => PropertyResult
  | .facet => Bool

/-- A stage of the walk, by what it answers with. -/
inductive Stage : StageKind → Type where
  /-- A node under a hint. -/
  | atNode (node : Node) (hint : ModelName) (nullable : Bool) : Stage .resolution
  /-- A schema under a hint. -/
  | atSchema (schema : Schema) (hint : ModelName) (nullable : Bool) : Stage .resolution
  /-- The members of a composition that are left, from number `index` on. -/
  | atMembers (nullableUnion : Bool) (members : List Node) (hint : ModelName) (index : Nat)
      (result : MemberResult) : Stage .members
  /-- The properties of an object that are left. -/
  | atProperties (required : List String) (properties : List (String × Node)) (hint : ModelName)
      (result : PropertyResult) : Stage .properties
  /-- The object of a schema, if it calls for one. -/
  | atObject (schema : Schema) (hint : ModelName) : Stage .facet
  /-- The array of a schema, if it calls for one. -/
  | atArray (schema : Schema) (hint : ModelName) : Stage .facet

/-- The step that a stage takes, given what is done at references. -/
def Stage.step (context : Context) (follow : FollowReference) {kind : StageKind} :
    Stage kind → Resolver kind.Answer
  | .atNode node hint nullable => resolveNode context follow node hint nullable
  | .atSchema schema hint nullable => resolveSchema context follow schema hint nullable
  | .atMembers nullableUnion members hint index result =>
    resolveMembers context follow nullableUnion members hint index result
  | .atProperties required properties hint result =>
    resolveProperties context follow required properties hint result
  | .atObject schema hint => registerOnce (schema.types.contains .object) hint do
      let result ← resolveProperties context follow schema.required schema.properties hint {}
      registerObject context hint result
  | .atArray schema hint =>
    registerOnce (schema.types.contains .array) hint (resolveItems context follow schema.items hint)

/-! ## The walk by the shape of a schema -/

section Shape

variable (context : Context) (follow : FollowReference)

/-- A schema with a combinator is resolved by the members of that. -/
theorem resolveSchema_of_composition {schema : Schema} {kind : CompositionKind}
    {members : List Node} (h : schema.composition? = some (kind, members)) (hint : ModelName)
    (nullable : Bool) :
    resolveSchema context follow schema hint nullable = (do
      let offered ← Resolver.ofExcept (offersNull context.document kind members)
      let result ← resolveMembers context follow offered members hint 0 {}
      registerComposition context kind hint result) := by
  obtain ⟨types, oneOf, allOf, anyOf, literals, properties, required, items⟩ := schema
  rw [resolveSchema]
  rcases Schema.composition?_cases h with
    ⟨ho, rfl, rfl⟩ | ⟨ho, ha, rfl, rfl⟩ | ⟨ho, ha, hn, rfl, rfl⟩
  · rw [if_pos (by simpa using ho)]
    rfl
  · rw [if_neg (by simpa using ho), if_pos (by simpa using ha)]
    rfl
  · rw [if_neg (by simpa using ho), if_neg (by simpa using ha), if_pos (by simpa using hn)]
    rfl

/-- A schema that says nothing is reported. -/
theorem resolveSchema_of_untyped {schema : Schema} (h : schema.composition? = none)
    (ht : schema.types.isEmpty = true) (hint : ModelName) (nullable : Bool) :
    resolveSchema context follow schema hint nullable = (do
      Resolver.record (.missingType hint)
      return .failed) := by
  obtain ⟨ho, ha, hn⟩ := Schema.isEmpty_of_composition?_eq_none h
  obtain ⟨types, oneOf, allOf, anyOf, literals, properties, required, items⟩ := schema
  rw [resolveSchema, if_neg (by simpa using ho), if_neg (by simpa using ha),
    if_neg (by simpa using hn), if_pos ht]

/-- The models that a schema calls for at once are registered first. -/
theorem registerPrimitives_apply (kinds : List PrimitiveKind) (state : ResolverState) :
    registerPrimitives context kinds state =
      .ok () (state.registerAll context.cancelAt (kinds.map .primitive)) := by
  induction kinds generalizing state with
  | nil => rfl
  | cons kind rest ih => exact ih _

/-- The enumeration of a schema, as a step. -/
theorem registerEnumeration_apply (schema : Schema) (hint : ModelName) (nullable : Bool)
    (state : ResolverState) :
    registerEnumeration context (schema.typesIn nullable) schema.literals hint state =
      .ok ((schema.enumerations hint).map Model.name)
        (state.registerAll context.cancelAt (schema.enumerations hint)) := by
  have ht : (schema.typesIn nullable).contains .string = schema.types.contains .string := by
    cases nullable <;> simp [Schema.typesIn]
  unfold registerEnumeration Schema.enumerations
  rw [ht]
  split <;> rfl

/-- A step that is taken only once is not taken if its name is known, or if no model is called
for. -/
theorem registerOnce_apply {called : Bool} {name : ModelName} {step : Resolver Bool}
    {state : ResolverState}
    (hdone : called = false ∨ state.repository.contains name = true) :
    registerOnce called name step state = .ok true state := by
  cases called with
  | false => rfl
  | true =>
    have hknown : state.repository.contains name = true := by simpa using hdone
    exact Resolver.bind_eq_ok_iff.2
      ⟨true, state, by rw [Resolver.isKnown_apply, hknown], rfl⟩

/-- A schema without combinator is resolved by its types. -/
theorem resolveSchema_of_types {schema : Schema} (h : schema.composition? = none)
    (ht : schema.types.isEmpty = false) (hint : ModelName) (nullable : Bool) :
    resolveSchema context follow schema hint nullable = (do
      registerPrimitives context (schema.typesIn nullable).primitives
      let enumeration ← registerEnumeration context (schema.typesIn nullable) schema.literals hint
      let objectDone ← (Stage.atObject schema hint).step context follow
      let arrayDone ← (Stage.atArray schema hint).step context follow
      return ⟨typeReferences (schema.typesIn nullable) enumeration hint,
        objectDone && arrayDone⟩) := by
  obtain ⟨ho, ha, hn⟩ := Schema.isEmpty_of_composition?_eq_none h
  obtain ⟨types, oneOf, allOf, anyOf, literals, properties, required, items⟩ := schema
  rw [resolveSchema, if_neg (by simpa using ho), if_neg (by simpa using ha),
    if_neg (by simpa using hn), if_neg (by simpa using ht)]
  cases nullable <;> rfl

end Shape

end ApiCatalog
