import ApiCatalog.Proofs.Resolution.Runs
import Mathlib.Order.WellFounded

set_option autoImplicit false

/-!
# Calls of the schema walk

A stage of the walk is carried out by calling further stages. Within one schema these calls descend
to smaller parts; at a reference to a component that is neither finished nor active, the component
is entered and becomes active. Both together cannot go on for ever.

## Main definitions

* `ApiCatalog.Frame`: a stage that is to be taken, in a state, while certain components are active.
* `ApiCatalog.Descends`, `ApiCatalog.Enters`, `ApiCatalog.Calls`: a frame is followed by another
  one before it can answer.
* `Schema.HasPart`, `Stage.PartOf`: the nodes of a schema at any depth, and the stages about them.

## Main results

* `ApiCatalog.wellFounded_calls`: there is an end to calls.
* `ApiCatalog.Descends.size_lt`, `ApiCatalog.Descends.partOf`: descents go to smaller parts.
-/

namespace ApiCatalog

/-! ## Parts of schemas -/

namespace Schema

/-- The nodes that a schema is made of, each one step down. -/
def children (schema : Schema) : List Node :=
  schema.oneOf ++ schema.allOf ++ schema.anyOf ++ schema.properties.map Prod.snd ++
    match schema.items with
    | some (.each node) => [node]
    | _ => []

/-- A node stands in a schema, at any depth. -/
inductive HasPart : Schema → Node → Prop
  | child {schema : Schema} {node : Node} (h : node ∈ schema.children) : HasPart schema node
  | deeper {schema inner : Schema} {node : Node} (hinner : .inline inner ∈ schema.children)
      (h : HasPart inner node) : HasPart schema node

variable {schema : Schema}

/-- The members that a schema is resolved by are among its children. -/
theorem mem_children_of_member {kind : CompositionKind} {members : List Node} {node : Node}
    (hshape : schema.composition? = some (kind, members)) (hnode : node ∈ members) :
    node ∈ schema.children := by
  simp only [children, List.mem_append]
  rcases composition?_cases hshape with ⟨-, -, rfl⟩ | ⟨-, -, -, rfl⟩ | ⟨-, -, -, -, rfl⟩
  · exact .inl (.inl (.inl (.inl hnode)))
  · exact .inl (.inl (.inl (.inr hnode)))
  · exact .inl (.inl (.inr hnode))

/-- The properties of a schema are among its children. -/
theorem mem_children_of_property {property : String × Node} (h : property ∈ schema.properties) :
    property.2 ∈ schema.children := by
  simp only [children, List.mem_append]
  exact .inl (.inr (List.mem_map.2 ⟨property, h, rfl⟩))

/-- The items of an array are among its children. -/
theorem mem_children_of_items {node : Node} (h : schema.items = some (.each node)) :
    node ∈ schema.children := by
  simp [children, h]

/-- A child is smaller than its schema. -/
theorem size_lt_of_mem_children {node : Node} (h : node ∈ schema.children) :
    sizeOf node < sizeOf schema := by
  obtain ⟨types, oneOf, allOf, anyOf, literals, properties, required, items⟩ := schema
  simp only [children, List.mem_append, List.mem_map] at h
  simp only [mk.sizeOf_spec]
  rcases h with (((hmem | hmem) | hmem) | ⟨⟨name, node⟩, hmem, rfl⟩) | hmem
  · have hlt := List.sizeOf_lt_of_mem hmem
    omega
  · have hlt := List.sizeOf_lt_of_mem hmem
    omega
  · have hlt := List.sizeOf_lt_of_mem hmem
    omega
  · have hlt := List.sizeOf_lt_of_mem hmem
    simp only [Prod.mk.sizeOf_spec] at hlt ⊢
    omega
  · split at hmem
    · obtain rfl := List.mem_singleton.1 hmem
      simp only [Option.some.sizeOf_spec, Items.each.sizeOf_spec]
      omega
    · cases hmem

/-- A part is smaller than its schema. -/
theorem HasPart.size_lt {node : Node} (h : schema.HasPart node) : sizeOf node < sizeOf schema := by
  induction h with
  | child h => exact size_lt_of_mem_children h
  | deeper hinner _ ih =>
    have hlt := size_lt_of_mem_children hinner
    simp only [OrReference.inline.sizeOf_spec] at hlt
    omega

/-- What is a child of a part is a part. -/
theorem HasPart.trans {inner : Schema} {node : Node} (h : schema.HasPart (.inline inner))
    (hnode : node ∈ inner.children) : schema.HasPart node := by
  generalize hpart : (OrReference.inline inner : Node) = part at h
  induction h with
  | child h =>
    subst hpart
    exact .deeper h (.child hnode)
  | deeper hinner _ ih => exact .deeper hinner (ih hpart)

end Schema

/-! ## Frames -/

/-- A stage that is to be taken in a state, while the components `active` are being resolved. -/
structure Frame where
  active : List ModelName
  {kind : StageKind}
  stage : Stage kind
  state : ResolverState

/-- Before a frame can answer, a part of the schema that it is about has to be dealt with, in the
state that the parts before have left. -/
inductive Descends (context : Context) : Frame → Frame → Prop
  /-- The schema that is written in place of a node. -/
  | inline {active schema hint nullable state} :
      state.cancelled = false →
      Descends context ⟨active, .atNode (.inline schema) hint nullable, state⟩
        ⟨active, .atSchema schema hint nullable, state⟩
  /-- The members of a composition. -/
  | members {active schema hint nullable kind members offered state} :
      schema.composition? = some (kind, members) →
      offersNull context.document kind members = .ok offered →
      Descends context ⟨active, .atSchema schema hint nullable, state⟩
        ⟨active, .atMembers offered members hint 0 {}, state⟩
  /-- The object of a schema with types. -/
  | object {active schema hint nullable state} :
      schema.composition? = none →
      schema.types.isEmpty = false →
      Descends context ⟨active, .atSchema schema hint nullable, state⟩
        ⟨active, .atObject schema hint,
          state.registerAll context.cancelAt (schema.flatModels hint nullable)⟩
  /-- The array of a schema with types, after its object. -/
  | array {active schema hint nullable state objectDone state₁} :
      schema.composition? = none →
      schema.types.isEmpty = false →
      Runs context active (.atObject schema hint)
        (state.registerAll context.cancelAt (schema.flatModels hint nullable)) objectDone state₁ →
      Descends context ⟨active, .atSchema schema hint nullable, state⟩
        ⟨active, .atArray schema hint, state₁⟩
  /-- The first member that is left. -/
  | member {active offered member rest hint index result state} :
      state.cancelled = false →
      Descends context ⟨active, .atMembers offered (member :: rest) hint index result, state⟩
        ⟨active, .atNode member (Naming.member hint index) (offered && member.isSingleNonNull),
          state⟩
  /-- The members after the first. -/
  | otherMembers {active offered member rest hint index result state resolution state₁} :
      state.cancelled = false →
      Runs context active
        (.atNode member (Naming.member hint index) (offered && member.isSingleNonNull)) state
        resolution state₁ →
      Descends context ⟨active, .atMembers offered (member :: rest) hint index result, state⟩
        ⟨active, .atMembers offered rest hint (index + 1) (result.add resolution), state₁⟩
  /-- The first property that is left. -/
  | property {active required name node rest hint result state} :
      Descends context ⟨active, .atProperties required ((name, node) :: rest) hint result, state⟩
        ⟨active, .atNode node (Naming.property hint name) false, state⟩
  /-- The properties after the first. -/
  | otherProperties {active required name node rest hint result state resolution state₁} :
      Runs context active (.atNode node (Naming.property hint name) false) state resolution
        state₁ →
      Descends context ⟨active, .atProperties required ((name, node) :: rest) hint result, state⟩
        ⟨active, .atProperties required rest hint (result.add required name resolution), state₁⟩
  /-- The properties of an object. -/
  | properties {active schema hint state} :
      schema.types.contains .object = true →
      state.repository.contains hint = false →
      Descends context ⟨active, .atObject schema hint, state⟩
        ⟨active, .atProperties schema.required schema.properties hint {}, state⟩
  /-- The items of an array. -/
  | items {active schema hint node state} :
      schema.types.contains .array = true →
      state.repository.contains hint = false →
      schema.items = some (.each node) →
      Descends context ⟨active, .atArray schema hint, state⟩
        ⟨active, .atNode node (Naming.arrayItem hint) false, state⟩

/-- Before a frame at a reference can answer, the component `id` is entered. -/
inductive Enters (context : Context) (id : String) : Frame → Frame → Prop
  | enter {active target hint nullable schema state} :
      state.cancelled = false →
      componentName target = .ok (some id) →
      state.memo.find? id = none →
      id ∉ active →
      context.document.findSchema target = .ok (.ok schema) →
      Enters context id ⟨active, .atNode (.reference target) hint nullable, state⟩
        ⟨id :: active, .atSchema schema id false, state⟩

/-- Before a frame can answer, another one has to. -/
def Calls (context : Context) (caller callee : Frame) : Prop :=
  Descends context caller callee ∨ ∃ id, Enters context id caller callee

/-! ## Descents -/

/-- The size of what a stage is about, finer than the size of the schema that it belongs to. -/
noncomputable def Stage.size {kind : StageKind} : Stage kind → Nat
  | .atNode node _ _ => 2 * sizeOf node
  | .atSchema schema _ _ => 2 * sizeOf schema + 1
  | .atMembers _ members _ _ _ => 2 * sizeOf members
  | .atProperties _ properties _ _ => 2 * sizeOf properties
  | .atObject schema _ => 2 * sizeOf schema
  | .atArray schema _ => 2 * sizeOf schema

/-- A stage is about a schema or parts of it. -/
def Stage.PartOf (whole : Schema) {kind : StageKind} : Stage kind → Prop
  | .atNode node _ _ => whole.HasPart node
  | .atSchema schema _ _ => schema = whole ∨ whole.HasPart (.inline schema)
  | .atMembers _ members _ _ _ => ∀ member ∈ members, whole.HasPart member
  | .atProperties _ properties _ _ => ∀ property ∈ properties, whole.HasPart property.2
  | .atObject schema _ => schema = whole ∨ whole.HasPart (.inline schema)
  | .atArray schema _ => schema = whole ∨ whole.HasPart (.inline schema)

section Descents

variable {context : Context} {caller callee : Frame}

/-- The members that a schema is resolved by are smaller than it. -/
theorem Schema.size_members_lt {schema : Schema} {kind : CompositionKind} {members : List Node}
    (h : schema.composition? = some (kind, members)) : sizeOf members < sizeOf schema := by
  obtain ⟨types, oneOf, allOf, anyOf, literals, properties, required, items⟩ := schema
  simp only [mk.sizeOf_spec]
  rcases composition?_cases h with ⟨-, -, rfl⟩ | ⟨-, -, -, rfl⟩ | ⟨-, -, -, -, rfl⟩ <;> omega

/-- The properties of a schema are smaller than it. -/
theorem Schema.size_properties_lt (schema : Schema) :
    sizeOf schema.properties < sizeOf schema := by
  obtain ⟨types, oneOf, allOf, anyOf, literals, properties, required, items⟩ := schema
  simp only [mk.sizeOf_spec]
  omega

/-- A descent goes to something smaller. -/
theorem Descends.size_lt (h : Descends context caller callee) :
    callee.stage.size < caller.stage.size := by
  cases h with
  | inline =>
    simp only [Stage.size, OrReference.inline.sizeOf_spec]
    omega
  | members hshape =>
    have hlt := Schema.size_members_lt hshape
    simp only [Stage.size]
    omega
  | object | array =>
    simp only [Stage.size]
    omega
  | member | otherMembers =>
    simp only [Stage.size, List.cons.sizeOf_spec]
    omega
  | property | otherProperties =>
    simp only [Stage.size, List.cons.sizeOf_spec, Prod.mk.sizeOf_spec]
    omega
  | properties =>
    have hlt := Schema.size_properties_lt ‹Schema›
    simp only [Stage.size]
    omega
  | items _ _ hitems =>
    have hlt := Schema.size_lt_of_mem_children (Schema.mem_children_of_items hitems)
    simp only [Stage.size]
    omega

/-- A descent stays among the active components. -/
theorem Descends.active_eq (h : Descends context caller callee) :
    callee.active = caller.active := by
  cases h <;> rfl

/-- The children of a schema are parts of whatever it is, or is part of. -/
theorem Schema.hasPart_of_mem_children {whole schema : Schema} {node : Node}
    (h : schema = whole ∨ whole.HasPart (.inline schema)) (hnode : node ∈ schema.children) :
    whole.HasPart node := by
  rcases h with rfl | h
  · exact .child hnode
  · exact h.trans hnode

/-- A descent goes to parts of the same schema. -/
theorem Descends.partOf {whole : Schema} (h : Descends context caller callee)
    (hpart : caller.stage.PartOf whole) : callee.stage.PartOf whole := by
  cases h with
  | inline => exact .inr hpart
  | members hshape =>
    exact fun member hmember => Schema.hasPart_of_mem_children hpart
      (Schema.mem_children_of_member hshape hmember)
  | object | array => exact hpart
  | member => exact hpart _ List.mem_cons_self
  | otherMembers => exact fun member hmember => hpart member (List.mem_cons_of_mem _ hmember)
  | property => exact hpart _ List.mem_cons_self
  | otherProperties =>
    exact fun property hproperty => hpart property (List.mem_cons_of_mem _ hproperty)
  | properties =>
    exact fun property hproperty => Schema.hasPart_of_mem_children hpart
      (Schema.mem_children_of_property hproperty)
  | items _ _ hitems =>
    exact Schema.hasPart_of_mem_children hpart (Schema.mem_children_of_items hitems)

end Descents

/-! ## There is an end to calls -/

/-- A component that is entered is one of the document, and was not active. -/
theorem Enters.active_eq {context : Context} {id : String} {caller callee : Frame}
    (h : Enters context id caller callee) :
    callee.active = id :: caller.active ∧ id ∉ caller.active ∧
      id ∈ context.document.schemaIds := by
  cases h with
  | enter _ hname _ hnew hfound => exact ⟨rfl, hnew, mem_schemaIds_of_findSchema hname hfound⟩

/-- **There is an end to calls**, whatever cycles the components form.

**Proof sketch.** When a component is entered, fewer components of the document are left that are
not active; a descent leaves the active components as they are and goes to something smaller. -/
theorem wellFounded_calls (context : Context) :
    WellFounded fun callee caller => Calls context caller callee := by
  let measure (frame : Frame) : Nat × Nat :=
    (remaining context.document.schemaIds frame.active, frame.stage.size)
  have hwf : WellFounded (Prod.Lex (· < ·) (· < ·) : Nat × Nat → Nat × Nat → Prop) :=
    (Prod.lex ⟨_, wellFounded_lt⟩ ⟨_, wellFounded_lt⟩).wf
  refine Subrelation.wf (r := InvImage _ measure) ?_ (InvImage.wf measure hwf)
  rintro callee caller (hdescends | ⟨id, henters⟩)
  · show Prod.Lex _ _ (remaining _ callee.active, _) (remaining _ caller.active, _)
    rw [hdescends.active_eq]
    exact Prod.Lex.right _ hdescends.size_lt
  · obtain ⟨hactive, hnew, hid⟩ := henters.active_eq
    refine Prod.Lex.left _ _ ?_
    rw [hactive]
    exact remaining_lt hid hnew

end ApiCatalog
