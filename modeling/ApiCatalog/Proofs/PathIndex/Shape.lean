import ApiCatalog.PathIndex.Basic

set_option autoImplicit false

/-!
# The shape of a path index

The nodes of an index and their children, seen by the segments that lead from one node to another.
An index is proper if each child stands for the segment that leads to it, and is of the kind that
the segment asks for. Then segments can be laid into it without refusal: what is there stays, and
each new node is led to by some of the segments. Bindings and endpoints do not touch the shape.

## Main definitions

* `PathIndex.child?`, `PathIndex.endpointAt`: the child of a node for a segment, and its endpoint
  for a method.
* `PathIndex.Proper`: children stand for the segments that lead to them.
* `PathIndex.Extends`, `PathIndex.SameOutline`: an index with more nodes, or with the same.
* `PathIndex.Laid`: an index after segments were laid into another.

## Main results

* `PathIndex.Extends.descend`: segments lead to the same node in an index with more nodes.
* `PathIndex.getOrAdd_of_proper`: a segment can be laid below any node of a proper index.
* `PathIndex.sameOutline_bind`, `PathIndex.insertEndpoint_of_free`: bindings and endpoints.
-/

namespace ApiCatalog

/-- The kind of node that a segment asks for. -/
def SegmentKind.ofSegment (segment : String) : SegmentKind :=
  if isParameterSegment segment then .parameter else .constant

/-- The kind of a node that is bound to nothing. -/
@[simp]
theorem PartKind.segmentKind_unbound (kind : SegmentKind) :
    (PartKind.unbound kind).segmentKind = kind := by
  cases kind <;> rfl

/-- What a node is apart from its endpoints and from the schema that it is bound to. -/
def PathPart.outline (part : PathPart) : String × SegmentKind × OrderedMap String Nat :=
  (part.segment, part.kind.segmentKind, part.children)

namespace PathIndex

variable {index index₁ index₂ index' : PathIndex} {id parent child : Nat} {segment : String}
  {segments rest : List String} {method : HttpMethod}

/-! ## Children -/

/-- The child of a node for a segment. -/
def child? (index : PathIndex) (id : Nat) (segment : String) : Option Nat :=
  (index.part? id).bind fun part => part.children.find? segment

/-- The endpoint of a node for a method. -/
def endpointAt (index : PathIndex) (id : Nat) (method : HttpMethod) : Option Endpoint :=
  (index.part? id).bind fun part => part.endpoint? method

/-- The numbers of nodes are those below the number of nodes. -/
theorem part?_isSome_iff : (index.part? id).isSome = true ↔ id < index.parts.length := by
  simp [part?]

/-- A number that is too great belongs to no node. -/
theorem part?_eq_none (h : index.parts.length ≤ id) : index.part? id = none :=
  List.getElem?_eq_none h

/-- A child has a greater number than its parent, and belongs to the index. -/
theorem lt_of_child? (h : index.child? id segment = some child) :
    id < child ∧ child < index.parts.length := by
  obtain ⟨part, hpart, hfind⟩ := Option.bind_eq_some_iff.1 h
  exact index.descending id part hpart child
    (List.mem_map.2 ⟨_, (OrderedMap.find?_eq_some_iff.1 hfind), rfl⟩)

/-- The first segment leads to a child. -/
theorem descend_cons : index.descend id (segment :: rest) =
    (index.child? id segment).bind fun child => index.descend child rest := by
  rw [descend, child?]
  cases index.part? id with
  | none => rfl
  | some part =>
    cases hfind : part.children.find? segment with
    | none => simp only [Option.bind_some, hfind, Option.bind_none]
    | some child => simp only [Option.bind_some, hfind]

/-- Segments lead to nodes of the index. -/
theorem lt_of_descend (hid : id < index.parts.length) (h : index.descend id segments = some child) :
    child < index.parts.length := by
  induction segments generalizing id with
  | nil =>
    cases h
    exact hid
  | cons segment rest ih =>
    rw [descend_cons] at h
    obtain ⟨first, hfirst, hrest⟩ := Option.bind_eq_some_iff.1 h
    exact ih (lt_of_child? hfirst).2 hrest

/-- The root belongs to every index. -/
theorem root_lt (index : PathIndex) : root < index.parts.length :=
  List.length_pos_iff.2 index.rooted

/-! ## An index with more nodes -/

/-- An index has the nodes of another, with at least the same children. -/
structure Extends (index index' : PathIndex) : Prop where
  length_le : index.parts.length ≤ index'.parts.length
  child : ∀ {id segment child}, index.child? id segment = some child →
    index'.child? id segment = some child

namespace Extends

/-- An index extends itself. -/
theorem refl (index : PathIndex) : index.Extends index :=
  ⟨Nat.le_refl _, id⟩

/-- What extends an extension extends the index. -/
theorem trans (h₁ : index.Extends index₁) (h₂ : index₁.Extends index₂) : index.Extends index₂ :=
  ⟨Nat.le_trans h₁.length_le h₂.length_le, fun h => h₂.child (h₁.child h)⟩

/-- **Segments lead to the same node in an index with more nodes.** -/
theorem descend (h : index.Extends index') (hdescend : index.descend id segments = some child) :
    index'.descend id segments = some child := by
  induction segments generalizing id with
  | nil => exact hdescend
  | cons segment rest ih =>
    rw [descend_cons] at hdescend ⊢
    obtain ⟨first, hfirst, hrest⟩ := Option.bind_eq_some_iff.1 hdescend
    rw [h.child hfirst]
    exact ih hrest

end Extends

/-- Two indices have the same nodes with the same children, apart from endpoints and bindings. -/
def SameOutline (index index' : PathIndex) : Prop :=
  index'.parts.map PathPart.outline = index.parts.map PathPart.outline

namespace SameOutline

/-- The outline of a node is the same. -/
theorem part? (h : index.SameOutline index') (id : Nat) :
    (index'.part? id).map PathPart.outline = (index.part? id).map PathPart.outline := by
  rw [PathIndex.part?, PathIndex.part?, ← List.getElem?_map, ← List.getElem?_map, h]

/-- The number of nodes is the same. -/
theorem length_eq (h : index.SameOutline index') : index'.parts.length = index.parts.length := by
  have hlength := congrArg List.length h
  rwa [List.length_map, List.length_map] at hlength

/-- The children are the same. -/
theorem child?_eq (h : index.SameOutline index') (id : Nat) (segment : String) :
    index'.child? id segment = index.child? id segment := by
  have hthrough : ∀ index : PathIndex, index.child? id segment =
      ((index.part? id).map PathPart.outline).bind fun outline =>
        outline.2.2.find? segment := by
    intro index
    rw [child?, Option.bind_map]
    rfl
  rw [hthrough, hthrough, h.part?]

/-- An index with the same outline extends an index. -/
theorem toExtends (h : index.SameOutline index') : index.Extends index' :=
  ⟨Nat.le_of_eq h.length_eq.symm,
    fun {id segment _} hchild => (h.child?_eq id segment).trans hchild⟩

end SameOutline

/-! ## Proper indices -/

/-- Each child stands for the segment that leads to it, and is of the kind that the segment asks
for. -/
def Proper (index : PathIndex) : Prop :=
  ∀ {id segment child part}, index.child? id segment = some child →
    index.part? child = some part →
    part.segment = segment ∧ part.kind.segmentKind = .ofSegment segment

/-- The empty index is proper. -/
theorem proper_empty : (∅ : PathIndex).Proper := by
  intro id segment child part hchild hpart
  obtain ⟨hlt, hbelow⟩ := lt_of_child? hchild
  have hone : child < 1 := hbelow
  omega

/-- An index with the outline of a proper one is proper. -/
theorem SameOutline.proper (h : index.SameOutline index') (hproper : index.Proper) :
    index'.Proper := by
  intro id segment child part hchild hpart
  have houtline := h.part? child
  rw [hpart] at houtline
  cases hold : index.part? child with
  | none =>
    rw [hold] at houtline
    cases houtline
  | some old =>
    rw [hold] at houtline
    have hsame : part.outline = old.outline := Option.some.inj houtline
    obtain ⟨hsegment, hkind⟩ := hproper ((h.child?_eq id segment).symm.trans hchild) hold
    exact ⟨(congrArg Prod.fst hsame).trans hsegment,
      (congrArg (fun outline => outline.2.1) hsame).trans hkind⟩

/-- The children after a node was added. -/
theorem child?_addPart {kind : PartKind} (hparent : parent < index.parts.length) (i : Nat)
    (other : String) :
    (index.addPart parent segment kind).child? i other =
      if i = parent ∧ segment = other then some index.parts.length else index.child? i other := by
  rw [child?, part?_addPart]
  by_cases hnew : i = index.parts.length
  · have hne : i ≠ parent := by omega
    rw [if_pos hnew, if_neg (fun h => hne h.1), child?, part?_eq_none (by omega)]
    rfl
  · rw [if_neg hnew]
    by_cases hi : i = parent
    · subst hi
      obtain ⟨part, hpart⟩ := Option.isSome_iff_exists.1 (part?_isSome_iff.2 hparent)
      rw [if_pos rfl, child?, hpart]
      simp only [Option.map_some, Option.bind_some, addChild, OrderedMap.find?_insert, true_and]
    · rw [if_neg hi, if_neg (fun h => hi h.1), child?]

/-- A new node has no endpoints, and those of the others are as they were. -/
theorem endpointAt_addPart {kind : PartKind} (i : Nat) (method : HttpMethod) :
    (index.addPart parent segment kind).endpointAt i method = index.endpointAt i method := by
  rw [endpointAt, part?_addPart, endpointAt]
  by_cases hnew : i = index.parts.length
  · rw [if_pos hnew, part?_eq_none (by omega)]
    rfl
  · rw [if_neg hnew]
    by_cases hi : i = parent
    · rw [if_pos hi]
      cases index.part? i <;> rfl
    · rw [if_neg hi]

/-- A new child keeps an index proper. -/
theorem Proper.addPart (h : index.Proper) (hparent : parent < index.parts.length) :
    (index.addPart parent segment (.unbound (.ofSegment segment))).Proper := by
  intro i other child part hchild hpart
  rw [child?_addPart hparent] at hchild
  rw [part?_addPart] at hpart
  split at hchild
  · next hi =>
    cases hchild
    rw [if_pos rfl] at hpart
    cases hpart
    exact ⟨hi.2, by rw [← hi.2]; exact PartKind.segmentKind_unbound _⟩
  · -- an old child may be the parent of the new one, which leaves its segment and kind alone
    have hlt := (lt_of_child? hchild).2
    rw [if_neg (by omega)] at hpart
    split at hpart
    · obtain ⟨old, hold, rfl⟩ := Option.map_eq_some_iff.1 hpart
      exact ⟨(h hchild hold).1, (h hchild hold).2⟩
    · exact h hchild hpart

/-! ## Laying segments into an index -/

/-- An index after segments were laid into another one below a node: it is proper, what was there is
there still, with the same endpoints, and some of the segments lead to each new node. -/
structure Laid (index index' : PathIndex) (origin : Nat) (segments : List String) : Prop where
  proper : index'.Proper
  toExtends : index.Extends index'
  endpointAt : ∀ id method, index'.endpointAt id method = index.endpointAt id method
  reached : ∀ id, id < index'.parts.length → id < index.parts.length ∨
    ∃ initial, initial <+: segments ∧ index'.descend origin initial = some id

namespace Laid

variable {origin : Nat}

/-- Nothing is laid. -/
theorem refl (h : index.Proper) (origin : Nat) (segments : List String) :
    index.Laid index origin segments :=
  ⟨h, .refl index, fun _ _ => rfl, fun _ hlt => .inl hlt⟩

/-- One segment and then others are laid. -/
theorem cons (h₁ : index.Laid index₁ origin [segment]) (h₂ : index₁.Laid index₂ id rest)
    (hchild : index₁.child? origin segment = some id) :
    index.Laid index₂ origin (segment :: rest) where
  proper := h₂.proper
  toExtends := h₁.toExtends.trans h₂.toExtends
  endpointAt := fun i method => (h₂.endpointAt i method).trans (h₁.endpointAt i method)
  reached := by
    intro i hi
    rcases h₂.reached i hi with hold | ⟨initial, hinitial, hdescend⟩
    · refine (h₁.reached i hold).imp_right ?_
      rintro ⟨initial, hinitial, hdescend⟩
      exact ⟨initial, hinitial.trans (List.prefix_append [segment] rest),
        h₂.toExtends.descend hdescend⟩
    · refine .inr ⟨segment :: initial, (List.prefix_cons_inj segment).2 hinitial, ?_⟩
      rw [descend_cons, h₂.toExtends.child hchild]
      exact hdescend

/-- Segments are laid into an index that differs in its bindings. -/
theorem of_sameOutline (houtline : index.SameOutline index₁)
    (hendpoints : ∀ id method, index₁.endpointAt id method = index.endpointAt id method)
    (h : index₁.Laid index' origin segments) : index.Laid index' origin segments where
  proper := h.proper
  toExtends := houtline.toExtends.trans h.toExtends
  endpointAt := fun i method => (h.endpointAt i method).trans (hendpoints i method)
  reached := fun i hi => by rw [← houtline.length_eq]; exact h.reached i hi

end Laid

/-- **A segment can be laid below any node of a proper index**: it is not refused, and leads to the
child afterwards. -/
theorem getOrAdd_of_proper (h : index.Proper) (hparent : parent < index.parts.length)
    (segment : String) :
    ∃ id index', index.getOrAdd parent segment (.ofSegment segment) = .ok (id, index') ∧
      index.Laid index' parent [segment] ∧ index'.child? parent segment = some id := by
  obtain ⟨part, hpart⟩ := Option.isSome_iff_exists.1 (part?_isSome_iff.2 hparent)
  have hchild : index.child? parent segment = part.children.find? segment := by
    rw [child?, hpart, Option.bind_some]
  unfold getOrAdd
  rw [hpart]
  cases hfind : part.children.find? segment with
  | some id =>
    rw [hfind] at hchild
    obtain ⟨existing, hexisting⟩ :=
      Option.isSome_iff_exists.1 (part?_isSome_iff.2 (lt_of_child? hchild).2)
    refine ⟨id, index, ?_, .refl h parent _, hchild⟩
    simp only [hfind, hexisting, (h hchild hexisting).2, if_true]
  | none =>
    rw [hfind] at hchild
    have hnew : (index.addPart parent segment (.unbound (.ofSegment segment))).child? parent
        segment = some index.parts.length := by
      rw [child?_addPart hparent, if_pos ⟨rfl, rfl⟩]
    refine ⟨index.parts.length, _, by simp only [hfind], ⟨h.addPart hparent, ⟨?_, ?_⟩,
      endpointAt_addPart, fun i hi => ?_⟩, hnew⟩
    · rw [length_addPart]
      omega
    · intro i other child hold
      rw [child?_addPart hparent, if_neg ?_]
      · exact hold
      · rintro ⟨rfl, rfl⟩
        rw [hchild] at hold
        cases hold
    · rw [length_addPart] at hi
      by_cases hold : i < index.parts.length
      · exact .inl hold
      · obtain rfl : i = index.parts.length := by omega
        exact .inr ⟨[segment], List.prefix_rfl, by rw [descend_cons, hnew]; rfl⟩

/-! ## Bindings and endpoints -/

/-- A change that leaves outlines alone leaves the outline of the index alone. -/
theorem sameOutline_update {change : PathPart → PathPart}
    {keeps : ∀ part, (change part).children = part.children}
    (h : ∀ part, (change part).outline = part.outline) :
    index.SameOutline (index.update id change keeps) := by
  have hmodify : (index.parts.modify id change).map PathPart.outline =
      index.parts.map PathPart.outline := by
    refine List.ext_getElem? fun i => ?_
    rw [List.getElem?_map, List.getElem?_map, List.getElem?_modify]
    cases index.parts[i]? with
    | none => rfl
    | some part =>
      refine congrArg some ?_
      show (if id = i then change part else part).outline = part.outline
      split
      · exact h part
      · rfl
  exact hmodify

/-- The endpoints after a change of a node. -/
theorem endpointAt_update {change : PathPart → PathPart}
    {keeps : ∀ part, (change part).children = part.children} (i : Nat) (method : HttpMethod) :
    (index.update id change keeps).endpointAt i method =
      if i = id then (index.part? i).bind fun part => (change part).endpoint? method
      else index.endpointAt i method := by
  rw [endpointAt, part?_update]
  split
  · cases index.part? i <;> rfl
  · rfl

/-- A binding leaves the outline and the endpoints alone. -/
theorem sameOutline_bind {schema bound : ModelName}
    (h : index.bind id schema = .ok (bound, index')) :
    index.SameOutline index' ∧
      ∀ i method, index'.endpointAt i method = index.endpointAt i method := by
  unfold bind at h
  split at h
  · cases h
  · split at h
    · cases h
    · cases h
      refine ⟨sameOutline_update fun part => ?_, fun i method => ?_⟩
      · unfold bindPart
        split
        · next hkind => simp only [PathPart.outline, hkind, PartKind.segmentKind]
        · rfl
      · refine (endpointAt_update i method).trans ?_
        split
        · refine congrArg _ (funext fun part => ?_)
          unfold bindPart
          split <;> rfl
        · rfl

/-- **An endpoint can be inserted at a node that has none for its method**, and is there
afterwards. -/
theorem insertEndpoint_of_free {endpoint : Endpoint} (hid : id < index.parts.length)
    (hfree : index.endpointAt id endpoint.method = none) :
    ∃ index', index.insertEndpoint id endpoint = .ok index' ∧ index.SameOutline index' ∧
      ∀ i method, index'.endpointAt i method =
        if i = id ∧ endpoint.method = method then some endpoint else index.endpointAt i method := by
  obtain ⟨part, hpart⟩ := Option.isSome_iff_exists.1 (part?_isSome_iff.2 hid)
  rw [endpointAt, hpart, Option.bind_some] at hfree
  refine ⟨index.update id (addEndpoint endpoint) fun _ => rfl, ?_, sameOutline_update fun _ => rfl,
    fun i method => ?_⟩
  · unfold insertEndpoint
    simp only [hpart, hfree]
  · refine (endpointAt_update i method).trans ?_
    rw [endpointAt]
    by_cases hi : i = id
    · subst hi
      rw [if_pos rfl, hpart]
      show ((part.endpoints.getD ∅).insert endpoint.method endpoint).find? method = _
      rw [OrderedMap.find?_insert]
      by_cases hmethod : endpoint.method = method
      · rw [if_pos hmethod, if_pos ⟨rfl, hmethod⟩]
      · rw [if_neg hmethod, if_neg fun h => hmethod h.2, Option.bind_some, PathPart.endpoint?]
        cases part.endpoints <;> rfl
    · rw [if_neg hi, if_neg fun h => hi h.1]

end PathIndex

end ApiCatalog
