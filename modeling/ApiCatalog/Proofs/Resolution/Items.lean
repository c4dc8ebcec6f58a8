import ApiCatalog.Proofs.Extraction.References
import ApiCatalog.Proofs.Resolution.Origins

set_option autoImplicit false

/-!
# Items of arrays

An array refers to whatever its items schema was resolved to. How many references that are can be
read off the schema that the items stand for: one for a composition, and else one for each type, and
one more for the enumeration of a schema that admits strings. Only a reference back to a component
that is being resolved gives a single one instead.

## Main definitions

* `Document.Places`: the names under which the schemas of a document are resolved.
* `Document.Means`: the schema of a node, in place or through references.
* `Schema.referenceCount`: the number of references of a schema.
* `Model.ArrayFits`: an array refers to as many models as its items schema accounts for.

## Main results

* `Schema.length_denoted`: a schema denotes as many references as its count says.
* `Runs.tallies`: what the memo answers with has the number of references of its component's schema.
* `Runs.arraysFit`: a run registers only arrays that fit.
-/

namespace ApiCatalog

/-! ## Places -/

/-- The names under which the schemas of a document are resolved: those that paths ask for, the ids
of components, and the names of the parts of schemas that are written in place. -/
inductive Document.Places (document : Document) : Schema → ModelName → Prop
  /-- A schema that a path asks for. -/
  | request {name : ModelName} {schema : Schema}
      (hrequest : (name, .inline schema) ∈ document.requests) : Places document schema name
  /-- The schema of a component. -/
  | component {id : String} {schema : Schema} (hstands : document.StandsFor id schema) :
      Places document schema id
  /-- A member of a composition. -/
  | member {schema part : Schema} {name : ModelName} {kind : CompositionKind}
      {members : List Node} {index : Nat} (h : Places document schema name)
      (hshape : schema.composition? = some (kind, members))
      (hpart : members[index]? = some (.inline part)) :
      Places document part (Naming.member name index)
  /-- A property of an object. -/
  | property {schema part : Schema} {name : ModelName} {key : String}
      (h : Places document schema name) (hshape : schema.composition? = none)
      (hcalled : schema.types.contains .object = true)
      (hpart : (key, .inline part) ∈ schema.properties) :
      Places document part (Naming.property name key)
  /-- The items of an array. -/
  | items {schema part : Schema} {name : ModelName}
      (h : Places document schema name) (hshape : schema.composition? = none)
      (hcalled : schema.types.contains .array = true)
      (hpart : schema.items = some (.each (.inline part))) :
      Places document part (Naming.arrayItem name)

/-- The schema of a node: the one that is written in place, or what the component stands for that a
reference names. -/
inductive Document.Means (document : Document) : Node → Schema → Prop
  | inPlace (schema : Schema) : Means document (.inline schema) schema
  | byName {target id : String} {schema : Schema} (hname : componentName target = .ok (some id))
      (hstands : document.StandsFor id schema) : Means document (.reference target) schema

/-- A node has one schema only. -/
theorem Document.Means.unique {document : Document} {node : Node} {schema schema' : Schema}
    (h : document.Means node schema) (h' : document.Means node schema') : schema = schema' := by
  cases h with
  | inPlace =>
    cases h'
    rfl
  | byName hname hstands =>
    cases h' with
    | byName hname' hstands' =>
      rw [hname] at hname'
      cases hname'
      exact hstands.unique hstands'

/-! ## Numbers of references -/

/-- A type set has its primitive kinds, and possibly objects and arrays. -/
theorem TypeSet.size_eq (types : TypeSet) :
    types.size = types.primitives.length + (if types.contains .object then 1 else 0) +
      (if types.contains .array then 1 else 0) := by
  have hall : SchemaType.all = PrimitiveKind.all.map PrimitiveKind.schemaType ++
      [.object, .array] := rfl
  rw [size, toList, hall, List.filter_append, List.length_append, List.filter_map, List.length_map,
    Nat.add_assoc]
  congr 1
  rw [List.filter_cons, List.filter_cons, List.filter_nil]
  split <;> split <;> rfl

namespace Schema

variable (schema : Schema)

/-- Whether a schema calls for an enumeration: it admits strings and has literals. -/
def hasEnumeration : Bool :=
  schema.types.contains .string && !schema.literals.isEmpty

/-- The number of references of a schema: one for a composition, and else one for each type and one
for the enumeration. -/
def referenceCount : Nat :=
  if schema.composition?.isSome then 1
  else schema.types.size + (if schema.hasEnumeration then 1 else 0)

/-- A schema denotes as many references as its count says. -/
theorem length_denoted (hint : ModelName) :
    (schema.denoted hint false).length = schema.referenceCount := by
  unfold denoted referenceCount
  split
  · rfl
  · have henumerations : (schema.enumerations hint).length =
        if schema.hasEnumeration then 1 else 0 := by
      unfold enumerations hasEnumeration
      split <;> simp_all
    rw [references, typeReferences, TypeSet.size_eq, ← henumerations]
    simp only [typesIn, Bool.false_eq_true, if_false, List.length_append, List.length_map]
    split <;> split <;> simp <;> omega

variable {schema}

/-- More than one reference goes back to more than one type, or to an enumeration. -/
theorem of_one_lt_referenceCount (h : 1 < schema.referenceCount) :
    schema.composition? = none ∧ (1 < schema.types.size ∨ schema.hasEnumeration = true) := by
  unfold referenceCount at h
  split at h
  · omega
  · next hshape =>
    refine ⟨by simpa using hshape, ?_⟩
    split at h
    · next henumeration => exact .inr henumeration
    · exact .inl (by omega)

/-- A composition, and a schema with one type and without enumeration, has one reference. -/
theorem referenceCount_eq_one
    (h : schema.composition? ≠ none ∨ (schema.types.size = 1 ∧ schema.hasEnumeration = false)) :
    schema.referenceCount = 1 := by
  unfold referenceCount
  split
  · rfl
  · next hshape =>
    obtain ⟨hsize, henumeration⟩ := h.resolve_left fun hsome => hsome (by simpa using hshape)
    rw [hsize, henumeration]
    rfl

end Schema

/-! ## What is tallied -/

/-- A number is one, or the number of references of some schema of a kind. -/
def Tallied (means : Schema → Prop) (count : Nat) : Prop :=
  count = 1 ∨ ∃ schema, means schema ∧ count = schema.referenceCount

/-- What components are recalled as has as many references as their schemas, or a single one. -/
def Document.Tallies (document : Document) (state : ResolverState) : Prop :=
  ∀ id resolution, state.memo.find? id = some resolution → resolution.succeeded = true →
    Tallied (document.StandsFor id) resolution.references.length

section Tallies

variable {context : Context} {active : List ModelName} {state state' : ResolverState}
  {resolution : Resolution}

/-- What a schema is resolved to with success has the number of its references. -/
theorem Runs.length_references {schema : Schema} {hint : ModelName}
    (h : Runs context active (.atSchema schema hint false) state resolution state')
    (hsucceeded : resolution.succeeded = true) :
    resolution.references.length = schema.referenceCount := by
  rcases h.answer_cases with ⟨rfl, -⟩ | ⟨hreferences, -⟩
  · cases hsucceeded
  · rw [hreferences, Schema.length_denoted]

/-- **A run keeps what is tallied**: a component that is entered is recalled as what its schema is
resolved to. -/
theorem Runs.tallies {kind : StageKind} {stage : Stage kind} {answer : kind.Answer}
    (h : Runs context active stage state answer state')
    (hbefore : context.document.Tallies state) : context.document.Tallies state' := by
  intro id resolution hfind hsucceeded
  rcases h.memo_cases hfind with hold | ⟨_, _, schema, _, _, hname, hfound, hrun, -⟩
  · exact hbefore id resolution hold hsucceeded
  · exact .inr ⟨schema, standsFor_of_findSchema hname hfound, hrun.length_references hsucceeded⟩

/-- What a node is resolved to with success has the number of references of its schema, or a single
one, if it refers back to a component that is being resolved. -/
theorem Runs.tallied {node : Node} {hint : ModelName}
    (h : Runs context active (.atNode node hint false) state resolution state')
    (hbefore : context.document.Tallies state) (hsucceeded : resolution.succeeded = true) :
    Tallied (context.document.Means node) resolution.references.length := by
  cases h with
  | cancelled | refused | missing => cases hsucceeded
  | inline _ hschema => exact .inr ⟨_, .inPlace _, hschema.length_references hsucceeded⟩
  | finished _ hname hmemo =>
    refine (hbefore _ _ hmemo hsucceeded).imp_right ?_
    rintro ⟨schema, hstands, hcount⟩
    exact ⟨schema, .byName hname hstands, hcount⟩
  | busy => exact .inl rfl
  | entered _ hname _ _ hfound hschema =>
    exact .inr ⟨_, .byName hname (standsFor_of_findSchema hname hfound),
      hschema.length_references hsucceeded⟩

/-- The memo is tallied after a component is finished. -/
theorem Document.Tallies.memoise {document : Document} {id : ModelName}
    (h : document.Tallies state)
    (hnew : resolution.succeeded = true →
      Tallied (document.StandsFor id) resolution.references.length) :
    document.Tallies (state.memoise id resolution) := by
  intro other found hfind hsucceeded
  rcases ResolverState.find?_memoise_cases hfind with hold | ⟨rfl, rfl⟩
  · exact h other found hold hsucceeded
  · exact hnew hsucceeded

/-- The schema of a component's node is what the component stands for. -/
theorem Document.Means.standsFor {document : Document} {id : String} {node : Node} {schema : Schema}
    (h : document.Means node schema) (hfind : document.schemas.find? id = some node) :
    document.StandsFor id schema := by
  cases h with
  | inPlace => exact .inPlace hfind
  | byName hname hstands => exact .viaAlias hfind (targetName?_of_componentName hname) hstands

/-- A component that is resolved by itself keeps what is tallied. -/
theorem tallies_of_resolveComponent {id : String} {node : Node} {answer : Option Resolution}
    (h : resolveComponent context id node state = .ok answer state')
    (hfind : context.document.schemas.find? id = some node)
    (hbefore : context.document.Tallies state) : context.document.Tallies state' := by
  rcases resolveComponent_ok h with ⟨-, -, rfl⟩ | ⟨resolution, s, -, -, -, hrun, rfl⟩
  · exact hbefore
  · refine (hrun.tallies hbefore).memoise fun hsucceeded => ?_
    refine (hrun.tallied hbefore hsucceeded).imp_right ?_
    rintro ⟨schema, hmeans, hcount⟩
    exact ⟨schema, hmeans.standsFor hfind, hcount⟩

end Tallies

/-! ## Arrays -/

/-- An array goes back to a schema that is resolved under its name, and refers to as many models as
its items schema accounts for. Other models need not. -/
def Model.ArrayFits (document : Document) : Model → Prop
  | .array name items => ∃ own node, document.Places own name ∧ own.composition? = none ∧
      own.types.contains .array = true ∧ own.items = some (.each node) ∧
      Tallied (document.Means node) items.length
  | _ => True

/-- All arrays that are registered fit. -/
def Document.ArraysFit (document : Document) (state : ResolverState) : Prop :=
  ∀ model ∈ state.repository.models, model.ArrayFits document

namespace Document.ArraysFit

variable {document : Document} {state : ResolverState} {cancelAt : Option Nat}

/-- One more model that fits. -/
theorem register {model : Model} (h : document.ArraysFit state)
    (hmodel : model.ArrayFits document) : document.ArraysFit (state.register cancelAt model) := by
  intro other hother
  rcases Repository.mem_models_register.1 hother with hold | ⟨rfl, -⟩
  · exact h other hold
  · exact hmodel

/-- What a schema calls for before its parts are no arrays. -/
theorem registerAll {schema : Schema} {hint : ModelName} {nullable : Bool}
    (h : document.ArraysFit state) :
    document.ArraysFit (state.registerAll cancelAt (schema.flatModels hint nullable)) := by
  refine ResolverState.maintains_registerAll document.ArraysFit (fun model hmodel hfit => ?_) h
  refine hfit.register ?_
  rcases Schema.flatModels_cases hmodel with ⟨kind, rfl⟩ | rfl <;> trivial

/-- A finished component is no model. -/
theorem memoise {id : ModelName} {resolution : Resolution} (h : document.ArraysFit state) :
    document.ArraysFit (state.memoise id resolution) := by
  intro model hmodel
  rw [ResolverState.repository_memoise] at hmodel
  exact h model hmodel

end Document.ArraysFit

/-- The schemas of a stage are resolved under their names. -/
def Stage.Placed (document : Document) {kind : StageKind} : Stage kind → Prop
  | .atNode node hint _ => ∀ schema, node = .inline schema → document.Places schema hint
  | .atSchema schema hint _ => document.Places schema hint
  | .atMembers _ members hint index _ => ∀ i part, members[i]? = some (.inline part) →
      document.Places part (Naming.member hint (index + i))
  | .atProperties _ properties hint _ => ∀ key part, (key, .inline part) ∈ properties →
      document.Places part (Naming.property hint key)
  | .atObject schema hint | .atArray schema hint =>
    schema.composition? = none ∧ document.Places schema hint

/-- **A run registers only arrays that fit.**

**Proof sketch.** Induction on the run. The names of the parts are those under which they are
resolved; an array is registered with what its items are resolved to, which is tallied
(`Runs.tallied`) since the memo is (`Runs.tallies`). -/
theorem Runs.arraysFit {context : Context} {kind : StageKind} {active : List ModelName}
    {stage : Stage kind} {state state' : ResolverState} {answer : kind.Answer}
    (h : Runs context active stage state answer state') (hplaced : stage.Placed context.document)
    (htallies : context.document.Tallies state) (hfit : context.document.ArraysFit state) :
    context.document.ArraysFit state' := by
  have hflat {cancelAt : Option Nat} {state : ResolverState} (models : List Model)
      (htallies : context.document.Tallies state) :
      context.document.Tallies (state.registerAll cancelAt models) := by
    intro id resolution hfind
    rw [ResolverState.memo_registerAll] at hfind
    exact htallies id resolution hfind
  induction h with
  | cancelled | finished | busy | allMembers | membersLeft | allProperties | noObject | knownObject
  | noArray | knownArray | refused | missing | untyped | noItems | anyItems => exact hfit
  | inline _ _ ih => exact ih (hplaced _ rfl) htallies hfit
  | entered _ hname _ _ hfound _ ih =>
    exact (ih (.component (standsFor_of_findSchema hname hfound)) htallies hfit).memoise
  | composed hshape _ _ ih =>
    refine (ih (fun i part hpart => ?_) htallies hfit).register trivial
    rw [Nat.zero_add]
    exact .member hplaced hshape hpart
  | abandoned hshape _ _ ih =>
    refine ih (fun i part hpart => ?_) htallies hfit
    rw [Nat.zero_add]
    exact .member hplaced hshape hpart
  | typed hshape _ hobject _ ihObject ihArray =>
    have hmiddle := ihObject ⟨hshape, hplaced⟩ (hflat _ htallies) hfit.registerAll
    exact ihArray ⟨hshape, hplaced⟩ (hobject.tallies (hflat _ htallies)) hmiddle
  | nextMember _ hfirst _ ihFirst ihRest =>
    refine ihRest (fun i part hpart => ?_) (hfirst.tallies htallies)
      (ihFirst (fun part hpart => ?_) htallies hfit)
    · have hname := hplaced (i + 1) part hpart
      rwa [← Nat.add_assoc, Nat.add_right_comm] at hname
    · exact hplaced 0 part (congrArg some hpart)
  | nextProperty hfirst _ ihFirst ihRest =>
    refine ihRest (fun key part hpart => hplaced key part (List.mem_cons_of_mem _ hpart))
      (hfirst.tallies htallies) (ihFirst (fun part hpart => ?_) htallies hfit)
    exact hplaced _ part (hpart ▸ List.mem_cons_self)
  | lostObject hcalled _ _ _ ih =>
    exact ih (fun _ _ hpart => .property hplaced.2 hplaced.1 hcalled hpart) htallies hfit
  | object hcalled _ _ _ ih =>
    exact (ih (fun _ _ hpart => .property hplaced.2 hplaced.1 hcalled hpart) htallies
      hfit).register trivial
  | lostArray hcalled _ hitems _ _ ih =>
    exact ih (fun _ hpart => .items hplaced.2 hplaced.1 hcalled (hpart ▸ hitems)) htallies hfit
  | array hcalled _ hitems hnode hsucceeded ih =>
    refine (ih (fun _ hpart => .items hplaced.2 hplaced.1 hcalled (hpart ▸ hitems)) htallies
      hfit).register ?_
    exact ⟨_, _, hplaced.2, hplaced.1, hcalled, hitems, hnode.tallied htallies hsucceeded⟩

end ApiCatalog
