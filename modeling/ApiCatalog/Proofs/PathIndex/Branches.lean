import ApiCatalog.PathIndex.Walk
import ApiCatalog.Proofs.PathIndex.Shape
import Mathlib.Data.List.Induction

set_option autoImplicit false

/-!
# The branches of a path index

An index grows from the empty one by calls that add a segment below a node, bind a parameter, or
insert an endpoint. A refused call changes nothing. As long as the segments are proper ones, the
nodes form a tree: each node but the root is the child of exactly one other node, for the segment
that it stands for. Hence exactly one path leads from the root to each node, and it is the path that
a look-up follows.

## Main definitions

* `PathIndex.Call`, `PathIndex.ofCalls`: the ways in which an index grows, and what it grows to.
* `PathIndex.Branching`: the nodes form a tree.
* `PathIndex.HasPath`: the segments on the way from the root to a node.

## Main results

* `PathIndex.branching_ofCalls`: an index that grows by proper segments is a tree.
* `PathIndex.hasPath_iff_descend`: a look-up follows the path to a node.
* `PathIndex.Branching.hasPath_unique`, `PathIndex.Branching.exists_hasPath`: exactly one path leads
  to each node.
-/

namespace ApiCatalog

/-- A segment that can stand in a template: it is not empty and has no slash. -/
def IsSegment (segment : String) : Prop :=
  segment ≠ "" ∧ '/' ∉ segment.toList

instance (segment : String) : Decidable (IsSegment segment) := by
  unfold IsSegment
  infer_instance

namespace PathIndex

variable {index index' : PathIndex} {id parent child : Nat} {segment : String}
  {path path' rest : List String}

/-! ## Calls -/

/-- A call by which an index may grow. -/
inductive Call where
  /-- Asks for the child of a node for a segment, which is added if there is none. -/
  | getOrAdd (parent : Nat) (segment : String) (kind : SegmentKind)
  /-- Binds a parameter to a schema. -/
  | bind (id : Nat) (schema : ModelName)
  /-- Inserts an endpoint at a node. -/
  | insertEndpoint (id : Nat) (endpoint : Endpoint)

/-- A call whose segment, if it has one, is a proper one. -/
def Call.IsProper : Call → Prop
  | .getOrAdd _ segment _ => IsSegment segment
  | .bind _ _ => True
  | .insertEndpoint _ _ => True

instance : DecidablePred Call.IsProper
  | .getOrAdd _ segment _ => inferInstanceAs (Decidable (IsSegment segment))
  | .bind _ _ => inferInstanceAs (Decidable True)
  | .insertEndpoint _ _ => inferInstanceAs (Decidable True)

/-- The index after a call; it stays as it is if the call is refused. -/
def perform (index : PathIndex) : Call → PathIndex
  | .getOrAdd parent segment kind =>
    match index.getOrAdd parent segment kind with
    | .ok (_, index') => index'
    | .error _ => index
  | .bind id schema =>
    match index.bind id schema with
    | .ok (_, index') => index'
    | .error _ => index
  | .insertEndpoint id endpoint =>
    match index.insertEndpoint id endpoint with
    | .ok index' => index'
    | .error _ => index

/-- The index that the empty one grows to. -/
def ofCalls (calls : List Call) : PathIndex :=
  calls.foldl perform ∅

/-! ## Trees -/

/-- The nodes form a tree: each one but the root is the child of exactly one node, for the segment
that it stands for, and children stand in the order of their creation. -/
structure Branching (index : PathIndex) : Prop where
  isSegment : ∀ {id segment child}, index.child? id segment = some child → IsSegment segment
  segment_eq : ∀ {id segment child}, index.child? id segment = some child →
    index.segment child = segment
  parent_unique : ∀ {id segment id' segment' child}, index.child? id segment = some child →
    index.child? id' segment' = some child → id = id'
  exists_parent : ∀ {child}, child < index.parts.length → child ≠ root →
    ∃ id segment, index.child? id segment = some child
  ordered : ∀ id, (index.childIds id).Pairwise (· < ·)

/-- The children of a node are those that its segments lead to. -/
theorem mem_childIds_iff :
    child ∈ index.childIds id ↔ ∃ segment, index.child? id segment = some child := by
  unfold childIds child?
  cases index.part? id with
  | none => simp
  | some part =>
    constructor
    · intro h
      obtain ⟨entry, hentry, rfl⟩ := List.mem_map.1 h
      exact ⟨entry.1, OrderedMap.find?_eq_some_iff.2 hentry⟩
    · rintro ⟨segment, h⟩
      exact List.mem_map.2 ⟨(segment, child), OrderedMap.find?_eq_some_iff.1 h, rfl⟩

/-- The empty index has no children. -/
theorem child?_empty : (∅ : PathIndex).child? id segment ≠ some child := by
  intro h
  obtain ⟨hlt, hbelow⟩ := lt_of_child? h
  have hone : child < 1 := hbelow
  omega

/-- The empty index is a tree. -/
theorem branching_empty : (∅ : PathIndex).Branching where
  isSegment := fun h => absurd h child?_empty
  segment_eq := fun h => absurd h child?_empty
  parent_unique := fun h => absurd h child?_empty
  exists_parent := fun hlt hne => absurd (Nat.lt_one_iff.1 hlt) hne
  ordered := by
    intro id
    have hnone : (∅ : PathIndex).childIds id = [] := by
      refine List.eq_nil_iff_forall_not_mem.2 fun child hmem => ?_
      obtain ⟨segment, hchild⟩ := mem_childIds_iff.1 hmem
      exact child?_empty hchild
    rw [hnone]
    exact .nil

/-- The segments of nodes are part of the outline. -/
theorem SameOutline.segment_eq (h : index.SameOutline index') (id : Nat) :
    index'.segment id = index.segment id := by
  have hthrough : ∀ index : PathIndex, index.segment id =
      (((index.part? id).map PathPart.outline).map Prod.fst).getD "" := by
    intro index
    rw [segment, Option.map_map]
    rfl
  rw [hthrough, hthrough, h.part?]

/-- The children as a list are part of the outline. -/
theorem SameOutline.childIds_eq (h : index.SameOutline index') (id : Nat) :
    index'.childIds id = index.childIds id := by
  have hthrough : ∀ index : PathIndex, index.childIds id =
      (((index.part? id).map PathPart.outline).map fun outline => outline.2.2.values).getD [] := by
    intro index
    rw [childIds]
    cases index.part? id <;> rfl
  rw [hthrough, hthrough, h.part?]

/-- An index with the outline of a tree is a tree. -/
theorem Branching.of_sameOutline (h : index.Branching) (houtline : index.SameOutline index') :
    index'.Branching where
  isSegment := fun {id segment _} hchild =>
    h.isSegment ((houtline.child?_eq id segment).symm.trans hchild)
  segment_eq := fun {id segment child} hchild =>
    (houtline.segment_eq child).trans
      (h.segment_eq ((houtline.child?_eq id segment).symm.trans hchild))
  parent_unique := fun {id segment id' segment' _} hchild hchild' =>
    h.parent_unique ((houtline.child?_eq id segment).symm.trans hchild)
      ((houtline.child?_eq id' segment').symm.trans hchild')
  exists_parent := by
    intro child hlt hne
    rw [houtline.length_eq] at hlt
    obtain ⟨id, segment, hchild⟩ := h.exists_parent hlt hne
    exact ⟨id, segment, (houtline.child?_eq id segment).trans hchild⟩
  ordered := fun id => (houtline.childIds_eq id).symm ▸ h.ordered id

/-- The segments of nodes after a node was added. -/
theorem segment_addPart {kind : PartKind} (i : Nat) :
    (index.addPart parent segment kind).segment i =
      if i = index.parts.length then segment else index.segment i := by
  rw [PathIndex.segment, part?_addPart, PathIndex.segment]
  split
  · rfl
  · split
    · cases index.part? i <;> rfl
    · rfl

/-- The children of nodes after a node was added for a new segment. -/
theorem childIds_addPart {kind : PartKind} (hnew : index.child? parent segment = none) (i : Nat) :
    (index.addPart parent segment kind).childIds i =
      if i = parent ∧ i < index.parts.length then index.childIds i ++ [index.parts.length]
      else index.childIds i := by
  rw [childIds, part?_addPart, childIds]
  by_cases hlast : i = index.parts.length
  · have hnone : index.part? i = none := part?_eq_none (Nat.le_of_eq hlast.symm)
    rw [if_pos hlast, if_neg fun h => Nat.ne_of_lt h.2 hlast, hnone]
    rfl
  · rw [if_neg hlast]
    by_cases hi : i = parent
    · subst hi
      rw [if_pos rfl]
      cases hpart : index.part? i with
      | none =>
        rw [if_neg fun h => absurd (part?_isSome_iff.2 h.2) (by simp [hpart])]
        rfl
      | some part =>
        rw [if_pos ⟨rfl, part?_isSome_iff.1 (hpart ▸ rfl)⟩]
        rw [child?, hpart] at hnew
        exact OrderedMap.values_insert_of_new hnew
    · rw [if_neg hi, if_neg fun h => hi h.1]

/-- After a node was added, a child is the new node or an old one. -/
theorem child?_addPart_cases {kind : PartKind} (hparent : parent < index.parts.length) {i : Nat}
    {other : String} (hchild : (index.addPart parent segment kind).child? i other = some child) :
    (i = parent ∧ other = segment ∧ child = index.parts.length) ∨
      (child < index.parts.length ∧ index.child? i other = some child) := by
  rw [child?_addPart hparent] at hchild
  split at hchild
  · next hi => exact .inl ⟨hi.1, hi.2.symm, (Option.some.inj hchild).symm⟩
  · exact .inr ⟨(lt_of_child? hchild).2, hchild⟩

/-- A new child for a proper segment keeps a tree a tree. -/
theorem Branching.addPart {kind : PartKind} (h : index.Branching)
    (hparent : parent < index.parts.length) (hsegment : IsSegment segment)
    (hnew : index.child? parent segment = none) :
    (index.addPart parent segment kind).Branching where
  isSegment := by
    intro i other child hchild
    rcases child?_addPart_cases hparent hchild with ⟨-, rfl, -⟩ | ⟨-, hold⟩
    · exact hsegment
    · exact h.isSegment hold
  segment_eq := by
    intro i other child hchild
    rw [segment_addPart]
    rcases child?_addPart_cases hparent hchild with ⟨-, rfl, rfl⟩ | ⟨hlt, hold⟩
    · exact if_pos rfl
    · rw [if_neg (Nat.ne_of_lt hlt)]
      exact h.segment_eq hold
  parent_unique := by
    intro i other i' other' child hchild hchild'
    rcases child?_addPart_cases hparent hchild with ⟨rfl, -, hnode⟩ | ⟨hlt, hold⟩ <;>
      rcases child?_addPart_cases hparent hchild' with ⟨rfl, -, hnode'⟩ | ⟨hlt', hold'⟩
    · rfl
    -- an old child is not the new node
    · omega
    · omega
    · exact h.parent_unique hold hold'
  exists_parent := by
    intro child hlt hne
    rw [length_addPart] at hlt
    by_cases hold : child < index.parts.length
    · obtain ⟨i, other, hchild⟩ := h.exists_parent hold hne
      refine ⟨i, other, ?_⟩
      rw [child?_addPart hparent, if_neg]
      · exact hchild
      · rintro ⟨rfl, rfl⟩
        rw [hnew] at hchild
        cases hchild
    · obtain rfl : child = index.parts.length := by omega
      exact ⟨parent, segment, by rw [child?_addPart hparent, if_pos ⟨rfl, rfl⟩]⟩
  ordered := by
    intro i
    rw [childIds_addPart hnew]
    split
    · refine List.pairwise_append.2 ⟨h.ordered i, List.pairwise_singleton _ _, ?_⟩
      intro old hold new hlast
      rw [List.mem_singleton.1 hlast]
      exact (lt_of_mem_childIds hold).2
    · exact h.ordered i

/-! ## Growth -/

/-- A request for a child that is not refused finds it there, or adds it. -/
theorem getOrAdd_ok {kind : SegmentKind}
    (h : index.getOrAdd parent segment kind = .ok (id, index')) :
    index' = index ∧ index.child? parent segment = some id ∨
      parent < index.parts.length ∧ index.child? parent segment = none ∧
        index' = index.addPart parent segment (.unbound kind) := by
  unfold getOrAdd at h
  split at h
  · cases h
  · next part hpart =>
    have hchild : index.child? parent segment = part.children.find? segment := by
      rw [child?, hpart, Option.bind_some]
    split at h
    · next hfind =>
      cases h
      exact .inr ⟨part?_isSome_iff.1 (hpart ▸ rfl), hchild.trans hfind, rfl⟩
    · next found hfind =>
      split at h
      · cases h
      · split at h
        · cases h
          exact .inl ⟨rfl, hchild.trans hfind⟩
        · cases h

/-- An endpoint leaves the outline alone. -/
theorem sameOutline_insertEndpoint {endpoint : Endpoint}
    (h : index.insertEndpoint id endpoint = .ok index') : index.SameOutline index' := by
  unfold insertEndpoint at h
  split at h
  · cases h
  · split at h
    · cases h
    · cases h
      exact sameOutline_update fun _ => rfl

/-- **A call does nothing**, or it adds a node, binds a node or inserts an endpoint. -/
theorem perform_cases (index : PathIndex) (call : Call) :
    index.perform call = index ∨
      (∃ parent segment kind, call = .getOrAdd parent segment kind ∧
        parent < index.parts.length ∧ index.child? parent segment = none ∧
        index.perform call = index.addPart parent segment (.unbound kind)) ∨
      (∃ id schema bound, index.bind id schema = .ok (bound, index.perform call)) ∨
      ∃ id endpoint, index.insertEndpoint id endpoint = .ok (index.perform call) := by
  cases call with
  | getOrAdd parent segment kind =>
    rw [perform]
    split
    · next hok =>
      rcases getOrAdd_ok hok with ⟨hsame, -⟩ | ⟨hparent, hnew, hadded⟩
      · exact .inl hsame
      · exact .inr (.inl ⟨parent, segment, kind, rfl, hparent, hnew, hadded⟩)
    · exact .inl rfl
  | bind id schema =>
    rw [perform]
    split
    · next hok => exact .inr (.inr (.inl ⟨id, schema, _, hok⟩))
    · exact .inl rfl
  | insertEndpoint id endpoint =>
    rw [perform]
    split
    · next hok => exact .inr (.inr (.inr ⟨id, endpoint, hok⟩))
    · exact .inl rfl

/-- **A proper call keeps a tree a tree.** -/
theorem Branching.perform (h : index.Branching) {call : Call} (hcall : call.IsProper) :
    (index.perform call).Branching := by
  rcases index.perform_cases call with
    hsame | ⟨_, _, _, rfl, hparent, hnew, hadded⟩ | ⟨_, _, _, hbind⟩ | ⟨_, _, hinsert⟩
  · rwa [hsame]
  · rw [hadded]
    exact h.addPart hparent hcall hnew
  · exact h.of_sameOutline (sameOutline_bind hbind).1
  · exact h.of_sameOutline (sameOutline_insertEndpoint hinsert)

/-- **An index that grows by proper segments is a tree.** -/
theorem branching_ofCalls {calls : List Call} (hcalls : ∀ call ∈ calls, call.IsProper) :
    (ofCalls calls).Branching := by
  have hfold : ∀ index : PathIndex, index.Branching →
      (calls.foldl PathIndex.perform index).Branching := by
    induction calls with
    | nil => exact fun _ h => h
    | cons call rest ih =>
      intro index h
      exact ih (fun other hother => hcalls other (List.mem_cons_of_mem call hother)) _
        (h.perform (hcalls call List.mem_cons_self))
  exact hfold ∅ branching_empty

/-! ## The segments of children -/

namespace Branching

/-- A child is found under the segment that it stands for. -/
theorem child?_segment (h : index.Branching) (hchild : child ∈ index.childIds id) :
    index.child? id (index.segment child) = some child := by
  obtain ⟨segment, hsegment⟩ := mem_childIds_iff.1 hchild
  rw [h.segment_eq hsegment]
  exact hsegment

/-- Children stand for proper segments. -/
theorem isSegment_of_mem (h : index.Branching) (hchild : child ∈ index.childIds id) :
    IsSegment (index.segment child) :=
  h.isSegment (h.child?_segment hchild)

/-- No child is repeated. -/
theorem nodup_childIds (h : index.Branching) (id : Nat) : (index.childIds id).Nodup :=
  (h.ordered id).imp Nat.ne_of_lt

end Branching

/-! ## Paths -/

/-- The segments on the way from the root to a node. -/
inductive HasPath (index : PathIndex) : List String → Nat → Prop where
  /-- Nothing is on the way to the root. -/
  | root : HasPath index [] root
  /-- The segment of a child comes after those on the way to its parent. -/
  | child {path : List String} {parent id : Nat} (hparent : HasPath index path parent)
      (hchild : id ∈ index.childIds parent) : HasPath index (path ++ [index.segment id]) id

/-- Segments lead on from where others lead to. -/
theorem descend_append : index.descend id (path ++ rest) =
    (index.descend id path).bind fun middle => index.descend middle rest := by
  induction path generalizing id with
  | nil => rfl
  | cons segment path ih =>
    rw [List.cons_append, descend_cons, descend_cons, Option.bind_assoc]
    exact congrArg _ (funext fun child => ih)

/-- One segment leads to a child. -/
theorem descend_singleton : index.descend id [segment] = index.child? id segment := by
  rw [descend_cons]
  cases index.child? id segment <;> rfl

/-- **The path to a node is what a look-up follows.** -/
theorem hasPath_iff_descend (h : index.Branching) :
    index.HasPath path id ↔ index.descend root path = some id := by
  constructor
  · intro hpath
    induction hpath with
    | root => rfl
    | child _ hchild ih =>
      rw [descend_append, ih, Option.bind_some, descend_singleton]
      exact h.child?_segment hchild
  · -- a look-up goes forward, a path ends with the last segment
    intro hdescend
    induction path using List.reverseRecOn generalizing id with
    | nil =>
      cases hdescend
      exact .root
    | append_singleton path segment ih =>
      rw [descend_append] at hdescend
      obtain ⟨parent, hparent, hlast⟩ := Option.bind_eq_some_iff.1 hdescend
      rw [descend_singleton] at hlast
      rw [← h.segment_eq hlast]
      exact .child (ih hparent) (mem_childIds_iff.2 ⟨segment, hlast⟩)

/-- A path leads to a node of the index. -/
theorem HasPath.lt (hpath : index.HasPath path id) : id < index.parts.length := by
  cases hpath with
  | root => exact root_lt index
  | child _ hchild => exact (lt_of_mem_childIds hchild).2

namespace Branching

/-- A node has one path only. -/
theorem hasPath_unique (h : index.Branching) (hpath : index.HasPath path id)
    (hpath' : index.HasPath path' id) : path = path' := by
  induction hpath generalizing path' with
  | root =>
    generalize hid : root = id at hpath'
    cases hpath' with
    | root => rfl
    | child _ hchild' =>
      have hlt := (lt_of_mem_childIds hchild').1
      rw [← hid] at hlt
      exact absurd hlt (Nat.not_lt_zero _)
  | @child path parent id hparent hchild ih =>
    cases hpath' with
    | root => exact absurd (lt_of_mem_childIds hchild).1 (Nat.not_lt_zero _)
    | @child path' parent' _ hparent' hchild' =>
      obtain rfl : parent = parent' :=
        h.parent_unique (h.child?_segment hchild) (h.child?_segment hchild')
      rw [ih hparent']

/-- Each node has a path, by way of its parent, which is older. -/
theorem exists_hasPath (h : index.Branching) (hid : id < index.parts.length) :
    ∃ path, index.HasPath path id := by
  induction id using Nat.strongRecOn with
  | ind id ih =>
    by_cases hroot : id = root
    · exact ⟨[], hroot ▸ .root⟩
    · obtain ⟨parent, segment, hchild⟩ := h.exists_parent hid hroot
      obtain ⟨hlt, -⟩ := lt_of_child? hchild
      obtain ⟨path, hpath⟩ := ih parent hlt (Nat.lt_trans hlt hid)
      exact ⟨_, .child hpath (mem_childIds_iff.2 ⟨segment, hchild⟩)⟩

end Branching

end PathIndex

end ApiCatalog
