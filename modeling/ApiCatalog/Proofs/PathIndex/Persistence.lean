import ApiCatalog.Proofs.PathIndex.Growth

set_option autoImplicit false

/-!
# What stays in a path index

While an index grows, its nodes stay where they are and keep their kinds and endpoints. A binding
that is new belongs to the node that was bound.

## Main results

* `PathIndex.GrowsTo.toExtends`, `PathIndex.GrowsTo.segmentKind`: nodes stay, and keep their kinds.
* `PathIndex.GrowsTo.endpointAt`: endpoints stay.
* `PathIndex.boundAt_bind_cases`: what a node is bound to after another one was bound.
-/

namespace ApiCatalog

namespace PathIndex

variable {index index₁ : PathIndex} {id : Nat} {kind : SegmentKind} {schema bound : ModelName}
  {endpoint : Endpoint}

/-! ## Nodes and endpoints -/

/-- An endpoint that is inserted was missing at a node. -/
theorem free_of_insertEndpoint (h : index.insertEndpoint id endpoint = .ok index₁) :
    id < index.parts.length ∧ index.endpointAt id endpoint.method = none := by
  unfold insertEndpoint at h
  split at h
  · cases h
  · next part hpart =>
    split at h
    · cases h
    · next hfree => exact ⟨part?_isSome_iff.1 (hpart ▸ rfl), by rw [endpointAt, hpart]; exact hfree⟩

/-- The endpoints after one was inserted. -/
theorem endpointAt_insertEndpoint (h : index.insertEndpoint id endpoint = .ok index₁) (i : Nat)
    (method : HttpMethod) : index₁.endpointAt i method =
      if i = id ∧ endpoint.method = method then some endpoint else index.endpointAt i method := by
  obtain ⟨hid, hfree⟩ := free_of_insertEndpoint h
  obtain ⟨index', hinsert, -, hendpoints⟩ := insertEndpoint_of_free hid hfree
  cases h.symm.trans hinsert
  exact hendpoints i method

/-- A call leaves the nodes where they are. -/
theorem extends_perform (index : PathIndex) (call : Call) :
    index.Extends (index.perform call) := by
  rcases index.perform_cases call with
    hsame | ⟨parent, segment, kind, -, hparent, hnew, hadded⟩ | ⟨_, _, _, hbind⟩ | ⟨_, _, hinsert⟩
  · exact hsame.symm ▸ .refl index
  · rw [hadded]
    refine ⟨by rw [length_addPart]; omega, fun {i other child} hchild => ?_⟩
    rw [child?_addPart hparent, if_neg]
    · exact hchild
    · rintro ⟨rfl, rfl⟩
      rw [hnew] at hchild
      cases hchild
  · exact (sameOutline_bind hbind).1.toExtends
  · exact (sameOutline_insertEndpoint hinsert).toExtends

/-- A call leaves the endpoints where they are. -/
theorem endpointAt_perform {method : HttpMethod} {call : Call}
    (h : index.endpointAt id method = some endpoint) :
    (index.perform call).endpointAt id method = some endpoint := by
  rcases index.perform_cases call with
    hsame | ⟨_, _, _, -, -, -, hadded⟩ | ⟨_, _, _, hbind⟩ | ⟨_, _, hinsert⟩
  · rw [hsame, h]
  · rw [hadded, endpointAt_addPart, h]
  · rw [(sameOutline_bind hbind).2, h]
  · rw [endpointAt_insertEndpoint hinsert, if_neg, h]
    rintro ⟨rfl, rfl⟩
    cases h.symm.trans (free_of_insertEndpoint hinsert).2

/-- **Nodes stay where they are** while an index grows. -/
theorem GrowsTo.toExtends (h : index.GrowsTo index₁) : index.Extends index₁ :=
  h.maintains index.Extends (fun _ hinv => hinv.trans (extends_perform _ _)) (.refl index)

/-- **Endpoints stay** while an index grows. -/
theorem GrowsTo.endpointAt (h : index.GrowsTo index₁) {method : HttpMethod}
    (hendpoint : index.endpointAt id method = some endpoint) :
    index₁.endpointAt id method = some endpoint :=
  h.maintains (fun index => index.endpointAt id method = some endpoint)
    (fun _ hinv => endpointAt_perform hinv) hendpoint

/-- Nodes of indices with the same outline have the same kinds. -/
theorem SameOutline.segmentKind (h : index.SameOutline index₁) (id : Nat) :
    (index₁.part? id).map (fun part => part.kind.segmentKind) =
      (index.part? id).map fun part => part.kind.segmentKind := by
  have hkinds := congrArg (Option.map fun outline => outline.2.1) (h.part? id)
  rwa [Option.map_map, Option.map_map] at hkinds

/-- **Nodes keep their kinds** while an index grows. -/
theorem GrowsTo.segmentKind (h : index.GrowsTo index₁)
    (hkind : (index.part? id).map (fun part => part.kind.segmentKind) = some kind) :
    (index₁.part? id).map (fun part => part.kind.segmentKind) = some kind := by
  refine h.maintains (fun index => (index.part? id).map _ = some kind)
    (fun {index call} _ hinv => ?_) hkind
  rcases index.perform_cases call with
    hsame | ⟨_, _, _, -, -, -, hadded⟩ | ⟨_, _, _, hbind⟩ | ⟨_, _, hinsert⟩
  · rw [hsame, hinv]
  · obtain ⟨part, hpart, -⟩ := Option.map_eq_some_iff.1 hinv
    have hlt : id < index.parts.length := part?_isSome_iff.1 (hpart ▸ rfl)
    rw [hadded, part?_addPart, if_neg (Nat.ne_of_lt hlt)]
    split
    · rw [Option.map_map]
      exact hinv
    · exact hinv
  · rw [(sameOutline_bind hbind).1.segmentKind, hinv]
  · rw [(sameOutline_insertEndpoint hinsert).segmentKind, hinv]

/-! ## Bindings -/

/-- **What a node is bound to after one was bound**: to what it was bound to, or it is the one that
was bound. -/
theorem boundAt_bind_cases (h : index.bind id schema = .ok (bound, index₁)) {i : Nat}
    {found : ModelName} (hfound : index₁.boundAt i = some found) :
    index.boundAt i = some found ∨ (i = id ∧ found = schema) := by
  have hbound := boundAt_bind h
  unfold bind at h
  split at h
  · cases h
  · next part hpart =>
    split at h
    · cases h
    · next old hkind =>
      cases h
      by_cases hi : i = id
      · subst hi
        rw [hfound] at hbound
        obtain rfl := Option.some.inj hbound
        cases old with
        | none => exact .inr ⟨rfl, rfl⟩
        | some kept =>
          refine .inl ?_
          rw [boundAt, hpart, Option.bind_some, PathPart.schema?, hkind]
          rfl
      · refine .inl ?_
        rwa [boundAt, part?_update, if_neg hi] at hfound

end PathIndex

end ApiCatalog
