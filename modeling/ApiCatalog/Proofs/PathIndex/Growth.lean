import ApiCatalog.Proofs.PathIndex.Preorder

set_option autoImplicit false

/-!
# Growth of a path index

One index grows to another by proper calls. Whatever a proper call keeps is kept while an index
grows: in particular the nodes stay a tree, and a parameter that is bound stays bound.

## Main definitions

* `PathIndex.GrowsTo`: proper calls lead from one index to another.
* `PathIndex.boundAt`: the schema that a node is bound to.

## Main results

* `PathIndex.GrowsTo.maintains`: what a proper call keeps.
* `PathIndex.GrowsTo.branching`, `PathIndex.GrowsTo.boundAt`: trees and bindings.
* `ApiCatalog.isSegment_of_mem`: the segments of a template are proper.
* `PathIndex.Branching.segments_eq_of_find?`: templates that lead to one node have one list of
  segments.
-/

namespace ApiCatalog

/-! ## Segments -/

/-- The parts between separators hold no separator. -/
theorem forall_mem_splitOnP {α : Type} {p : α → Bool} {as part : List α}
    (h : part ∈ as.splitOnP p) : ∀ a ∈ part, p a = false := by
  induction as generalizing part with
  | nil =>
    obtain rfl := List.mem_singleton.1 h
    exact fun a ha => absurd ha List.not_mem_nil
  | cons first rest ih =>
    rw [List.splitOnP_cons_eq_if_modifyHead] at h
    split at h
    · rcases List.mem_cons.1 h with rfl | h
      · exact fun a ha => absurd ha List.not_mem_nil
      · exact ih h
    · next hfirst =>
      obtain ⟨head, tail, hsplit⟩ :=
        List.exists_cons_of_ne_nil (List.splitOnP_ne_nil p rest)
      rw [hsplit, List.modifyHead_cons] at h
      rcases List.mem_cons.1 h with rfl | h
      · have hhead := ih (hsplit ▸ List.mem_cons_self)
        exact List.forall_mem_cons.2 ⟨by simpa using hfirst, hhead⟩
      · exact ih (hsplit ▸ List.mem_cons_of_mem head h)

/-- **The segments of a template are proper.** -/
theorem isSegment_of_mem {template segment : String} (h : segment ∈ templateSegments template) :
    IsSegment segment := by
  obtain ⟨part, hpart, rfl⟩ := List.mem_map.1 h
  obtain ⟨hpart, hfull⟩ := List.mem_filter.1 hpart
  refine ⟨fun hempty => ?_, fun hslash => ?_⟩
  · rw [String.ofList_eq_empty_iff] at hempty
    simp [hempty] at hfull
  · rw [String.toList_ofList] at hslash
    simpa using forall_mem_splitOnP hpart _ hslash

namespace PathIndex

variable {index index₁ index₂ : PathIndex} {id : Nat} {schema : ModelName}

/-! ## Growth -/

/-- Proper calls lead from one index to another. -/
def GrowsTo (index index' : PathIndex) : Prop :=
  ∃ calls : List Call, (∀ call ∈ calls, call.IsProper) ∧ calls.foldl perform index = index'

namespace GrowsTo

/-- An index grows to itself by no call. -/
theorem refl (index : PathIndex) : index.GrowsTo index :=
  ⟨[], fun _ h => absurd h List.not_mem_nil, rfl⟩

/-- Some calls after others. -/
theorem trans (h₁ : index.GrowsTo index₁) (h₂ : index₁.GrowsTo index₂) :
    index.GrowsTo index₂ := by
  obtain ⟨calls, hcalls, rfl⟩ := h₁
  obtain ⟨calls', hcalls', rfl⟩ := h₂
  refine ⟨calls ++ calls', fun call hcall => ?_, List.foldl_append⟩
  exact (List.mem_append.1 hcall).elim (hcalls call) (hcalls' call)

/-- One more call. -/
theorem perform (h : index.GrowsTo index₁) (call : Call) (hcall : call.IsProper) :
    index.GrowsTo (index₁.perform call) :=
  h.trans ⟨[call], fun _ hmem => List.mem_singleton.1 hmem ▸ hcall, rfl⟩

/-- One more child. -/
theorem getOrAdd (h : index.GrowsTo index₁) {parent : Nat} {segment : String}
    {kind : SegmentKind} (hsegment : IsSegment segment)
    (hadd : index₁.getOrAdd parent segment kind = .ok (id, index₂)) : index.GrowsTo index₂ := by
  have hgrown := h.perform (.getOrAdd parent segment kind) hsegment
  rwa [PathIndex.perform, hadd] at hgrown

/-- One more binding. -/
theorem bind (h : index.GrowsTo index₁) {bound : ModelName}
    (hbind : index₁.bind id schema = .ok (bound, index₂)) : index.GrowsTo index₂ := by
  have hgrown := h.perform (.bind id schema) trivial
  rwa [PathIndex.perform, hbind] at hgrown

/-- One more endpoint. -/
theorem insertEndpoint (h : index.GrowsTo index₁) {endpoint : Endpoint}
    (hinsert : index₁.insertEndpoint id endpoint = .ok index₂) : index.GrowsTo index₂ := by
  have hgrown := h.perform (.insertEndpoint id endpoint) trivial
  rwa [PathIndex.perform, hinsert] at hgrown

/-- **An index maintains what proper calls keep**, while it grows. -/
theorem maintains (inv : PathIndex → Prop)
    (hcall : ∀ {index call}, Call.IsProper call → inv index → inv (index.perform call))
    (h : index.GrowsTo index₁) (hinv : inv index) : inv index₁ := by
  obtain ⟨calls, hcalls, rfl⟩ := h
  induction calls generalizing index with
  | nil => exact hinv
  | cons call rest ih =>
    obtain ⟨hfirst, hrest⟩ := List.forall_mem_cons.1 hcalls
    exact ih (hcall hfirst hinv) hrest

/-- A tree stays a tree. -/
theorem branching (h : index.GrowsTo index₁) (hbranching : index.Branching) :
    index₁.Branching :=
  h.maintains Branching (fun hcall hinv => hinv.perform hcall) hbranching

end GrowsTo

/-- **Templates that lead to one node of a tree have the same segments.** -/
theorem Branching.segments_eq_of_find? (h : index.Branching) {template : String}
    (hfind : index.find? template = some id) (other : String) :
    index.find? other = some id ↔ templateSegments other = templateSegments template := by
  constructor
  · intro hother
    exact h.hasPath_unique ((hasPath_iff_descend h).2 hother) ((hasPath_iff_descend h).2 hfind)
  · intro hsame
    rwa [find?, hsame]

/-! ## Bound nodes -/

/-- The schema that a node is bound to. -/
def boundAt (index : PathIndex) (id : Nat) : Option ModelName :=
  (index.part? id).bind PathPart.schema?

/-- A change of a node that keeps its schema keeps all bindings. -/
theorem boundAt_update {change : PathPart → PathPart}
    {keeps : ∀ part, (change part).children = part.children} {changed : Nat}
    (hchange : ∀ part, part.schema? = some schema → (change part).schema? = some schema)
    (h : index.boundAt id = some schema) :
    (index.update changed change keeps).boundAt id = some schema := by
  obtain ⟨part, hpart, hschema⟩ := Option.bind_eq_some_iff.1 h
  rw [boundAt, part?_update]
  split
  · rw [hpart]
    exact hchange part hschema
  · exact h

/-- A node that is a parameter can be bound. -/
theorem exists_bind {part : PathPart} (hpart : index.part? id = some part)
    (hkind : part.kind.segmentKind = .parameter) (schema : ModelName) :
    ∃ bound index', index.bind id schema = .ok (bound, index') := by
  unfold bind
  rw [hpart]
  cases hold : part.kind with
  | constant =>
    rw [hold] at hkind
    cases hkind
  | parameter bound =>
    simp only [hold]
    exact ⟨_, _, rfl⟩

/-- What a node is bound to after it was bound. -/
theorem boundAt_bind {bound : ModelName} (h : index.bind id schema = .ok (bound, index₁)) :
    index₁.boundAt id = some bound := by
  unfold bind at h
  split at h
  · cases h
  · next part hpart =>
    split at h
    · cases h
    · next old hkind =>
      cases h
      rw [boundAt, part?_update, if_pos rfl, hpart, Option.map_some, Option.bind_some, bindPart,
        hkind]
      cases old <;> simp [PathPart.schema?, PartKind.schema?, hkind]

/-- A change of a node that leaves its schema alone leaves all bindings alone. -/
theorem boundAt_update_eq {change : PathPart → PathPart}
    {keeps : ∀ part, (change part).children = part.children} {changed : Nat}
    (hchange : ∀ part, (change part).schema? = part.schema?) (i : Nat) :
    (index.update changed change keeps).boundAt i = index.boundAt i := by
  rw [boundAt, part?_update, boundAt]
  split
  · rw [Option.bind_map]
    exact congrArg _ (funext hchange)
  · rfl

/-- A new node is bound to nothing, and the others are bound as they were. -/
theorem boundAt_addPart (parent : Nat) (segment : String) (kind : SegmentKind) (i : Nat) :
    (index.addPart parent segment (.unbound kind)).boundAt i = index.boundAt i := by
  rw [boundAt, part?_addPart, boundAt]
  split
  · next hnew =>
    rw [part?_eq_none (Nat.le_of_eq hnew.symm)]
    cases kind <;> rfl
  · split
    · rw [Option.bind_map]
      rfl
    · rfl

/-- A node that is looked up or added binds nothing. -/
theorem boundAt_getOrAdd {parent : Nat} {segment : String} {kind : SegmentKind}
    (h : index.getOrAdd parent segment kind = .ok (id, index₁)) (i : Nat) :
    index₁.boundAt i = index.boundAt i := by
  rcases getOrAdd_ok h with ⟨rfl, -⟩ | ⟨-, -, rfl⟩
  · rfl
  · exact boundAt_addPart parent segment kind i

/-- An endpoint binds nothing. -/
theorem boundAt_insertEndpoint {endpoint : Endpoint}
    (h : index.insertEndpoint id endpoint = .ok index₁) (i : Nat) :
    index₁.boundAt i = index.boundAt i := by
  unfold insertEndpoint at h
  split at h
  · cases h
  · split at h
    · cases h
    · cases h
      have hkept : ∀ part, (addEndpoint endpoint part).schema? = part.schema? := fun _ => rfl
      exact boundAt_update_eq hkept i

/-- A node that is bound stays bound when a node is bound. -/
theorem boundAt_of_bind {bindId : Nat} {bindSchema bound : ModelName}
    (hbind : index.bind bindId bindSchema = .ok (bound, index₁))
    (h : index.boundAt id = some schema) : index₁.boundAt id = some schema := by
  unfold bind at hbind
  split at hbind
  · cases hbind
  · split at hbind
    · cases hbind
    · cases hbind
      refine boundAt_update (fun part hpart => ?_) h
      rw [bindPart]
      split
      · next hkind => simp [PathPart.schema?, PartKind.schema?, hkind] at hpart
      · exact hpart

/-- **A node that is bound stays bound**, to the same schema. -/
theorem boundAt_perform {call : Call} (h : index.boundAt id = some schema) :
    (index.perform call).boundAt id = some schema := by
  rcases index.perform_cases call with
    hsame | ⟨parent, segment, kind, -, -, -, hadded⟩ | ⟨_, _, _, hbind⟩ | ⟨_, _, hinsert⟩
  · rwa [hsame]
  · rwa [hadded, boundAt_addPart]
  · exact boundAt_of_bind hbind h
  · rwa [boundAt_insertEndpoint hinsert]

/-- Bindings stay while an index grows. -/
theorem GrowsTo.boundAt (h : index.GrowsTo index₁) (hbound : index.boundAt id = some schema) :
    index₁.boundAt id = some schema :=
  h.maintains (fun index => index.boundAt id = some schema)
    (fun _ hinv => boundAt_perform hinv) hbound

end PathIndex

end ApiCatalog
