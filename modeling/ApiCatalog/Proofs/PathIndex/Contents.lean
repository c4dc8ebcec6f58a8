import ApiCatalog.PathIndex.Basic

set_option autoImplicit false

/-!
# The contents of a path index

What the nodes of an index hold beside their children: endpoints, and schemas that parameters are
bound to. What holds of all of them goes on holding while the index grows, provided that it holds
of the endpoint that is inserted, or of the schema that a node is bound to.

## Main definitions

* `PathIndex.Holds`: the endpoints and the bound schemas of an index have certain properties.

## Main results

* `PathIndex.Holds.getOrAdd`, `PathIndex.Holds.bind`, `PathIndex.Holds.insertEndpoint`: the
  contents after each of the ways in which an index grows.
-/

namespace ApiCatalog

/-- The endpoints of a node, and the schema that it is bound to, have certain properties. -/
structure PathPart.Holds (onEndpoint : Endpoint → Prop) (onSchema : ModelName → Prop)
    (part : PathPart) : Prop where
  endpoints : ∀ endpoint ∈ part.endpointList, onEndpoint endpoint
  schema : ∀ schema, part.schema? = some schema → onSchema schema

namespace PathIndex

/-- The endpoints of all nodes, and the schemas that they are bound to, have certain properties. -/
def Holds (onEndpoint : Endpoint → Prop) (onSchema : ModelName → Prop) (index : PathIndex) :
    Prop :=
  ∀ part ∈ index.parts, part.Holds onEndpoint onSchema

namespace Holds

variable {onEndpoint onEndpoint' : Endpoint → Prop} {onSchema onSchema' : ModelName → Prop}
  {index index' : PathIndex}

/-- An empty node holds nothing. -/
theorem leaf (segment : String) (kind : SegmentKind) :
    (PathPart.leaf segment (.unbound kind)).Holds onEndpoint onSchema := by
  refine ⟨fun endpoint hendpoint => absurd hendpoint List.not_mem_nil, fun schema hschema => ?_⟩
  cases kind <;> cases hschema

/-- The empty index holds nothing. -/
theorem empty : (∅ : PathIndex).Holds onEndpoint onSchema := by
  intro part hpart
  obtain rfl := List.mem_singleton.1 hpart
  exact leaf "/" .constant

/-- Weaker properties hold as well. -/
theorem mono (h : index.Holds onEndpoint onSchema)
    (hendpoint : ∀ endpoint, onEndpoint endpoint → onEndpoint' endpoint)
    (hschema : ∀ schema, onSchema schema → onSchema' schema) :
    index.Holds onEndpoint' onSchema' := fun part hpart =>
  ⟨fun endpoint hmem => hendpoint endpoint ((h part hpart).endpoints endpoint hmem),
    fun schema hmem => hschema schema ((h part hpart).schema schema hmem)⟩

/-- What is in a list of which one entry was changed was there before, or is the changed entry. -/
theorem mem_modify {parts : List PathPart} {id : Nat} {change : PathPart → PathPart}
    {part : PathPart} (h : part ∈ parts.modify id change) :
    part ∈ parts ∨ ∃ old ∈ parts, part = change old := by
  obtain ⟨i, hi⟩ := List.mem_iff_getElem?.1 h
  rw [List.getElem?_modify] at hi
  cases hold : parts[i]? with
  | none =>
    rw [hold] at hi
    cases hi
  | some old =>
    rw [hold] at hi
    have hpart : (if id = i then change old else old) = part := Option.some.inj hi
    have hmem : old ∈ parts := List.mem_of_getElem? hold
    by_cases hid : id = i
    · rw [if_pos hid] at hpart
      exact .inr ⟨old, hmem, hpart.symm⟩
    · rw [if_neg hid] at hpart
      exact .inl (hpart ▸ hmem)

/-- The contents after a change of a node. -/
theorem update (h : index.Holds onEndpoint onSchema) {id : Nat} {change : PathPart → PathPart}
    {keeps : ∀ part, (change part).children = part.children}
    (hchange : ∀ part, part.Holds onEndpoint onSchema →
      (change part).Holds onEndpoint onSchema) :
    (index.update id change keeps).Holds onEndpoint onSchema := by
  intro part hpart
  rcases mem_modify hpart with hold | ⟨old, hold, rfl⟩
  · exact h part hold
  · exact hchange old (h old hold)

/-- The contents after the child of a node was looked up or added. -/
theorem getOrAdd (h : index.Holds onEndpoint onSchema) {parent id : Nat} {segment : String}
    {kind : SegmentKind} (hadd : index.getOrAdd parent segment kind = .ok (id, index')) :
    index'.Holds onEndpoint onSchema := by
  unfold PathIndex.getOrAdd at hadd
  split at hadd
  · cases hadd
  · split at hadd
    · cases hadd
      intro part hpart
      rcases List.mem_append.1 hpart with hpart | hpart
      · rcases mem_modify hpart with hold | ⟨old, hold, rfl⟩
        · exact h part hold
        · exact ⟨(h old hold).endpoints, (h old hold).schema⟩
      · obtain rfl := List.mem_singleton.1 hpart
        exact leaf segment kind
    · split at hadd
      · cases hadd
      · split at hadd
        · cases hadd
          exact h
        · cases hadd

/-- The contents after a node was bound to a schema. -/
theorem bind (h : index.Holds onEndpoint onSchema) {id : Nat} {schema bound : ModelName}
    (hschema : onSchema schema) (hbind : index.bind id schema = .ok (bound, index')) :
    index'.Holds onEndpoint onSchema := by
  unfold PathIndex.bind at hbind
  split at hbind
  · cases hbind
  · split at hbind
    · cases hbind
    · cases hbind
      refine h.update fun part hpart => ?_
      unfold bindPart
      split
      · refine ⟨hpart.endpoints, fun other hother => ?_⟩
        cases hother
        exact hschema
      · exact hpart

/-- The contents after an endpoint was inserted. -/
theorem insertEndpoint (h : index.Holds onEndpoint onSchema) {id : Nat} {endpoint : Endpoint}
    (hendpoint : onEndpoint endpoint) (hinsert : index.insertEndpoint id endpoint = .ok index') :
    index'.Holds onEndpoint onSchema := by
  unfold PathIndex.insertEndpoint at hinsert
  split at hinsert
  · cases hinsert
  · split at hinsert
    · cases hinsert
    · cases hinsert
      refine h.update fun part hpart => ⟨fun other hother => ?_, hpart.schema⟩
      have hmem : other ∈ ((part.endpoints.getD ∅).insert endpoint.method endpoint).values :=
        hother
      rcases OrderedMap.mem_values_insert hmem with rfl | hold
      · exact hendpoint
      · refine hpart.endpoints other ?_
        unfold PathPart.endpointList
        cases hendpoints : part.endpoints with
        | none =>
          rw [hendpoints] at hold
          exact absurd hold List.not_mem_nil
        | some endpoints =>
          rw [hendpoints] at hold
          exact hold

/-- What is held is held of every endpoint of the index. -/
theorem of_mem_endpoints (h : index.Holds onEndpoint onSchema) {endpoint : Endpoint}
    (hendpoint : endpoint ∈ index.endpoints) : onEndpoint endpoint := by
  obtain ⟨part, hpart, hmem⟩ := List.mem_flatMap.1 hendpoint
  exact (h part hpart).endpoints endpoint hmem

end Holds

end PathIndex

end ApiCatalog
