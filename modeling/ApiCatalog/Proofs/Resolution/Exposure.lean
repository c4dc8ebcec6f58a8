import ApiCatalog.Proofs.Resolution.Names
import ApiCatalog.Proofs.Resolution.Runs

set_option autoImplicit false

/-!
# What fails again

What failed is walked again when its node is resolved another time, but only where nothing was
registered: members of compositions, and the items of arrays that failed. An object is registered
even if a property of it failed, so the failure is forgotten; then an array whose items failed for
no other reason succeeds and is registered. Both can be read off a state in which the node was
resolved before.

## Main definitions

* `ApiCatalog.Exposed`: a node fails again, in a state in which it was resolved before.
* `ApiCatalog.Unlocks`: an array in a node is registered when the node is resolved again.

## Main results

* `ApiCatalog.exposed_typed_iff`, `ApiCatalog.exposed_composition_iff`: when a schema fails again.
* `ApiCatalog.Unlocks.extends`: the names of the arrays go on from that of the node.
-/

namespace ApiCatalog

/-- A node fails again in a state in which it was resolved before: at a reference to a component
that is not finished with success, at a schema that says nothing, or at an array that was not
registered and whose items are missing, are anything, or fail again. Failures of properties are
not met again, since the object is registered. -/
inductive Exposed (state : ResolverState) : Node → ModelName → Prop
  /-- A reference to nothing that is finished with success. -/
  | reference {target : String} {hint : ModelName}
      (h : ∀ id resolution, componentName target = .ok (some id) →
        state.memo.find? id = some resolution → resolution.succeeded = false) :
      Exposed state (.reference target) hint
  /-- A composition with a member that fails again. -/
  | member {schema : Schema} {hint : ModelName} {kind : CompositionKind} {members : List Node}
      {index : Nat} {member : Node} (hshape : schema.composition? = some (kind, members))
      (hmember : members[index]? = some member)
      (h : Exposed state member (Naming.member hint index)) : Exposed state (.inline schema) hint
  /-- A schema that says nothing. -/
  | untyped {schema : Schema} {hint : ModelName} (hshape : schema.composition? = none)
      (htypes : schema.types.isEmpty = true) : Exposed state (.inline schema) hint
  /-- An array that was not registered, unless it has items that do not fail again. -/
  | array {schema : Schema} {hint : ModelName} (hshape : schema.composition? = none)
      (harray : schema.types.contains .array = true)
      (hnew : state.repository.contains hint = false)
      (h : ∀ node, schema.items = some (.each node) →
        Exposed state node (Naming.arrayItem hint)) : Exposed state (.inline schema) hint

/-- A name is that of an array in a node which was not registered and whose items do not fail again,
so that it is registered when the node is resolved again. -/
inductive Unlocks (state : ResolverState) : Node → ModelName → ModelName → Prop
  /-- The array itself. -/
  | array {schema : Schema} {hint : ModelName} {node : Node} (hshape : schema.composition? = none)
      (harray : schema.types.contains .array = true)
      (hnew : state.repository.contains hint = false)
      (hitems : schema.items = some (.each node))
      (h : ¬ Exposed state node (Naming.arrayItem hint)) : Unlocks state (.inline schema) hint hint
  /-- An array in the items of an array that was not registered. -/
  | items {schema : Schema} {hint name : ModelName} {node : Node}
      (hshape : schema.composition? = none) (harray : schema.types.contains .array = true)
      (hnew : state.repository.contains hint = false)
      (hitems : schema.items = some (.each node))
      (h : Unlocks state node (Naming.arrayItem hint) name) :
      Unlocks state (.inline schema) hint name
  /-- An array in a member of a composition. -/
  | member {schema : Schema} {hint name : ModelName} {kind : CompositionKind}
      {members : List Node} {index : Nat} {member : Node}
      (hshape : schema.composition? = some (kind, members))
      (hmember : members[index]? = some member)
      (h : Unlocks state member (Naming.member hint index) name) :
      Unlocks state (.inline schema) hint name

section Places

variable {state : ResolverState} {schema : Schema} {hint name : ModelName} {node : Node}
  {target : String}

/-- The name of an array that is registered the second time goes on from that of the node. -/
theorem Unlocks.extends (h : Unlocks state node hint name) : Naming.Extends hint name := by
  induction h with
  | array => exact .refl _
  | items _ _ _ _ _ ih => exact (Naming.Extends.arrayItem _).trans ih
  | member _ _ _ ih => exact (Naming.Extends.member _ _).trans ih

/-- The name was free. -/
theorem Unlocks.free (h : Unlocks state node hint name) :
    state.repository.contains name = false := by
  induction h with
  | array _ _ hnew => exact hnew
  | items _ _ _ _ _ ih | member _ _ _ ih => exact ih

/-- A reference fails again unless its component is finished with success. -/
theorem exposed_reference_iff : Exposed state (.reference target) hint ↔
    ∀ id resolution, componentName target = .ok (some id) →
      state.memo.find? id = some resolution → resolution.succeeded = false := by
  constructor
  · rintro ⟨h⟩
    exact h
  · exact .reference

/-- A composition fails again if a member does. -/
theorem exposed_composition_iff {kind : CompositionKind} {members : List Node}
    (hshape : schema.composition? = some (kind, members)) :
    Exposed state (.inline schema) hint ↔ ∃ index member, members[index]? = some member ∧
      Exposed state member (Naming.member hint index) := by
  constructor
  · intro h
    cases h with
    | member hshape' hmember h =>
      rw [hshape] at hshape'
      cases hshape'
      exact ⟨_, _, hmember, h⟩
    | untyped hnone | array hnone =>
      rw [hshape] at hnone
      cases hnone
  · rintro ⟨index, member, hmember, h⟩
    exact .member hshape hmember h

/-- A schema with types fails again if it is an array that was not registered, unless it has items
that do not fail again. -/
theorem exposed_typed_iff (hshape : schema.composition? = none)
    (htypes : schema.types.isEmpty = false) :
    Exposed state (.inline schema) hint ↔ schema.types.contains .array = true ∧
      state.repository.contains hint = false ∧
      ∀ node, schema.items = some (.each node) → Exposed state node (Naming.arrayItem hint) := by
  constructor
  · intro h
    cases h with
    | member hshape' =>
      rw [hshape] at hshape'
      cases hshape'
    | untyped _ htypes' =>
      rw [htypes] at htypes'
      cases htypes'
    | array _ harray hnew h => exact ⟨harray, hnew, h⟩
  · rintro ⟨harray, hnew, h⟩
    exact .array hshape harray hnew h

/-- The arrays that are registered in a composition. -/
theorem unlocks_composition_iff {kind : CompositionKind} {members : List Node}
    (hshape : schema.composition? = some (kind, members)) :
    Unlocks state (.inline schema) hint name ↔ ∃ index member, members[index]? = some member ∧
      Unlocks state member (Naming.member hint index) name := by
  constructor
  · intro h
    cases h with
    | member hshape' hmember h =>
      rw [hshape] at hshape'
      cases hshape'
      exact ⟨_, _, hmember, h⟩
    | array hnone | items hnone =>
      rw [hshape] at hnone
      cases hnone
  · rintro ⟨index, member, hmember, h⟩
    exact .member hshape hmember h

/-- The arrays that are registered in a schema without combinator. -/
theorem unlocks_iff (hshape : schema.composition? = none) :
    Unlocks state (.inline schema) hint name ↔ schema.types.contains .array = true ∧
      state.repository.contains hint = false ∧ ∃ node, schema.items = some (.each node) ∧
        ((name = hint ∧ ¬ Exposed state node (Naming.arrayItem hint)) ∨
          Unlocks state node (Naming.arrayItem hint) name) := by
  constructor
  · intro h
    cases h with
    | member hshape' =>
      rw [hshape] at hshape'
      cases hshape'
    | array _ harray hnew hitems h => exact ⟨harray, hnew, _, hitems, .inl ⟨rfl, h⟩⟩
    | items _ harray hnew hitems h => exact ⟨harray, hnew, _, hitems, .inr h⟩
  · rintro ⟨harray, hnew, node, hitems, ⟨rfl, h⟩ | h⟩
    · exact .array hshape harray hnew hitems h
    · exact .items hshape harray hnew hitems h

end Places

end ApiCatalog
