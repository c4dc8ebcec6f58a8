import ApiCatalog.Proofs.PathIndex.Branches
import Mathlib.Data.List.Nodup

set_option autoImplicit false

/-!
# The walk of a path index

The loop with a stack lists the nodes of an index in the order in which the recursion over the tree
comes to them. In an index that grows by proper segments it lists each node once, with a template
whose segments are the path to the node.

## Main definitions

* `PathIndex.subtree`: the nodes of the tree below a node with their templates, in preorder.

## Main results

* `PathIndex.walkFrom_eq`: the loop lists the subtrees of the nodes on the stack.
* `PathIndex.Branching.subtree_root_perm`: the subtree of the root has each node once.
* `PathIndex.Branching.walk_eq`: the walk of a tree is the recursion over it.
* `PathIndex.walk_ofCalls`: the walk of an index that grows by proper segments.
-/

namespace ApiCatalog

/-! ## Templates -/

/-- The segments of two templates that are joined by a slash. -/
theorem templateSegments_slash (template rest : String) :
    templateSegments (template ++ "/" ++ rest) =
      templateSegments template ++ templateSegments rest := by
  have htext : (template ++ "/" ++ rest).toList = template.toList ++ '/' :: rest.toList := by
    simp
  rw [templateSegments, htext, List.splitOnP_append_cons _ _ (by simp), List.filter_append,
    List.map_append, templateSegments, templateSegments]

/-- A proper segment is the only one of itself. -/
theorem templateSegments_segment {segment : String} (h : IsSegment segment) :
    templateSegments segment = [segment] := by
  have hparts : segment.toList.splitOnP (· = '/') = [segment.toList] := by
    refine List.splitOnP_eq_singleton fun character hmem => ?_
    have hne : character ≠ '/' := fun heq => h.2 (heq ▸ hmem)
    simp [hne]
  have hfull : segment.toList ≠ [] := by simpa using h.1
  rw [templateSegments, hparts]
  simp [hfull]

/-- The template of a child has one more segment than that of its parent. -/
theorem templateSegments_childTemplate (template : String) {segment : String}
    (h : IsSegment segment) :
    templateSegments (PathIndex.childTemplate template segment) =
      templateSegments template ++ [segment] := by
  unfold PathIndex.childTemplate
  split
  · next hlast =>
    -- the slash at the end is the one that joins
    obtain ⟨initial, hinitial⟩ := List.getLast?_eq_some_iff.1 hlast
    obtain rfl : template = String.ofList initial ++ "/" := by
      rw [← String.toList_inj, hinitial]
      simp
    have hempty : templateSegments (String.ofList initial ++ "/") =
        templateSegments (String.ofList initial) := by
      have hslash := templateSegments_slash (String.ofList initial) ""
      rw [String.append_empty] at hslash
      rw [hslash]
      exact List.append_nil _
    rw [templateSegments_slash, templateSegments_segment h, hempty]
  · rw [templateSegments_slash, templateSegments_segment h]

namespace PathIndex

variable {index : PathIndex} {id : Nat} {template : String} {entry : String × Nat}

/-! ## The recursion over the tree -/

/-- The nodes of the tree below a node with their templates, each before its children. -/
def subtree (index : PathIndex) (template : String) (id : Nat) : List (String × Nat) :=
  (index.tree id).preorder index template

/-- The recursion goes through the trees of several nodes one after the other. -/
theorem preorderAll_map (template : String) (ids : List Nat) :
    PathTree.preorderAll index template (ids.map index.tree) =
      (ids.map fun child => (childTemplate template (index.segment child), child)).flatMap
        fun entry => index.subtree entry.1 entry.2 := by
  induction ids with
  | nil => rfl
  | cons child rest ih =>
    rw [List.map_cons, List.map_cons, List.flatMap_cons, ← ih]
    rw [subtree, tree]
    rfl

/-- A node comes first, then the subtrees of its children. -/
theorem subtree_eq (template : String) (id : Nat) : index.subtree template id =
    (template, id) :: (index.childEntries template id).flatMap
      fun entry => index.subtree entry.1 entry.2 := by
  have hchildren : (index.childIds id).attach.map (fun child => index.tree child.1) =
      (index.childIds id).map index.tree :=
    List.attach_map_val
  rw [subtree, tree, hchildren, PathTree.preorder, preorderAll_map, childEntries]

/-- **The loop lists the subtrees of the nodes on the stack**, if it has a step for each of their
nodes. -/
theorem walkFrom_eq {steps : Nat} {stack : List (String × Nat)}
    (h : (stack.flatMap fun entry => index.subtree entry.1 entry.2).length ≤ steps) :
    index.walkFrom steps stack = stack.flatMap fun entry => index.subtree entry.1 entry.2 := by
  induction steps generalizing stack with
  | zero => exact (List.eq_nil_of_length_eq_zero (Nat.le_zero.1 h)).symm
  | succ steps ih =>
    cases stack with
    | nil => rfl
    | cons entry rest =>
      -- the children take the place of their parent
      have hexpand : (entry :: rest).flatMap (fun entry => index.subtree entry.1 entry.2) =
          entry :: (index.childEntries entry.1 entry.2 ++ rest).flatMap
            fun entry => index.subtree entry.1 entry.2 := by
        rw [List.flatMap_cons, subtree_eq, List.flatMap_append, List.cons_append]
      rw [hexpand] at h ⊢
      exact congrArg (entry :: ·) (ih (Nat.le_of_succ_le_succ h))

/-! ## The nodes of a subtree -/

/-- The nodes of a subtree do not come before the node at its top. -/
theorem le_of_mem_subtree (h : entry ∈ index.subtree template id) : id ≤ entry.2 := by
  induction id using tree.induct index generalizing template with
  | case1 id ih =>
    rw [subtree_eq] at h
    rcases List.mem_cons.1 h with rfl | h
    · exact Nat.le_refl _
    · obtain ⟨below, hbelow, hentry⟩ := List.mem_flatMap.1 h
      obtain ⟨child, hchild, rfl⟩ := List.mem_map.1 hbelow
      have hlt := (lt_of_mem_childIds hchild).1
      have hle := ih ⟨child, hchild⟩ hentry
      exact Nat.le_trans (Nat.le_of_lt hlt) hle

/-- The children of the nodes of a subtree belong to it, with their templates. -/
theorem child_mem_subtree {parent child : Nat} {above : String}
    (h : (above, parent) ∈ index.subtree template id) (hchild : child ∈ index.childIds parent) :
    (childTemplate above (index.segment child), child) ∈ index.subtree template id := by
  induction id using tree.induct index generalizing template with
  | case1 id ih =>
    rw [subtree_eq] at h ⊢
    refine List.mem_cons_of_mem _ (List.mem_flatMap.2 ?_)
    rcases List.mem_cons.1 h with heq | h
    · cases heq
      refine ⟨_, List.mem_map.2 ⟨child, hchild, rfl⟩, ?_⟩
      rw [subtree_eq]
      exact List.mem_cons_self
    · obtain ⟨below, hbelow, hentry⟩ := List.mem_flatMap.1 h
      obtain ⟨first, hfirst, rfl⟩ := List.mem_map.1 hbelow
      exact ⟨_, hbelow, ih ⟨first, hfirst⟩ hentry⟩

namespace Branching

/-- The template of a child has the path to the child, if that of its parent has the path to the
parent. -/
theorem hasPath_childTemplate (h : index.Branching) {child : Nat}
    (hpath : index.HasPath (templateSegments template) id) (hchild : child ∈ index.childIds id) :
    index.HasPath (templateSegments (childTemplate template (index.segment child))) child := by
  rw [templateSegments_childTemplate template (h.isSegment_of_mem hchild)]
  exact .child hpath hchild

/-- The templates in a subtree have the paths to their nodes, which go through the node at the
top. -/
theorem hasPath_of_mem_subtree (h : index.Branching)
    (hpath : index.HasPath (templateSegments template) id)
    (hentry : entry ∈ index.subtree template id) :
    templateSegments template <+: templateSegments entry.1 ∧
      index.HasPath (templateSegments entry.1) entry.2 := by
  induction id using tree.induct index generalizing template with
  | case1 id ih =>
    rw [subtree_eq] at hentry
    rcases List.mem_cons.1 hentry with rfl | hentry
    · exact ⟨List.prefix_rfl, hpath⟩
    · obtain ⟨below, hbelow, hentry⟩ := List.mem_flatMap.1 hentry
      obtain ⟨child, hchild, rfl⟩ := List.mem_map.1 hbelow
      obtain ⟨hthrough, hfound⟩ :=
        ih ⟨child, hchild⟩ (h.hasPath_childTemplate hpath hchild) hentry
      rw [templateSegments_childTemplate template (h.isSegment_of_mem hchild)] at hthrough
      exact ⟨(List.prefix_append _ _).trans hthrough, hfound⟩

/-- The subtrees of two children of a node have no node in common: the paths to their nodes part at
the children. -/
theorem eq_of_mem_subtree (h : index.Branching)
    (hpath : index.HasPath (templateSegments template) id) {child other : Nat}
    (hchild : child ∈ index.childIds id) (hother : other ∈ index.childIds id)
    {entry entry' : String × Nat} (hsame : entry.2 = entry'.2)
    (hentry : entry ∈ index.subtree (childTemplate template (index.segment child)) child)
    (hentry' : entry' ∈ index.subtree (childTemplate template (index.segment other)) other) :
    child = other := by
  obtain ⟨hthrough, hfound⟩ :=
    h.hasPath_of_mem_subtree (h.hasPath_childTemplate hpath hchild) hentry
  obtain ⟨hthrough', hfound'⟩ :=
    h.hasPath_of_mem_subtree (h.hasPath_childTemplate hpath hother) hentry'
  rw [h.hasPath_unique hfound (hsame ▸ hfound')] at hthrough
  rw [templateSegments_childTemplate template (h.isSegment_of_mem hchild)] at hthrough
  rw [templateSegments_childTemplate template (h.isSegment_of_mem hother)] at hthrough'
  have hpaths := (List.prefix_of_prefix_length_le hthrough hthrough' (by simp)).eq_of_length (by simp)
  have hsegment : index.segment child = index.segment other := by simpa using hpaths
  have hfind := h.child?_segment hchild
  rw [hsegment, h.child?_segment hother] at hfind
  exact (Option.some.inj hfind).symm

/-- **No node is repeated in a subtree.** -/
theorem nodup_subtree (h : index.Branching)
    (hpath : index.HasPath (templateSegments template) id) :
    ((index.subtree template id).map Prod.snd).Nodup := by
  induction id using tree.induct index generalizing template with
  | case1 id ih =>
    rw [subtree_eq, List.map_cons, List.map_flatMap, List.nodup_cons]
    constructor
    · intro hmem
      obtain ⟨below, hbelow, hid⟩ := List.mem_flatMap.1 hmem
      obtain ⟨child, hchild, rfl⟩ := List.mem_map.1 hbelow
      obtain ⟨entry, hentry, rfl⟩ := List.mem_map.1 hid
      exact absurd (le_of_mem_subtree hentry) (Nat.not_le_of_lt (lt_of_mem_childIds hchild).1)
    · rw [childEntries, List.flatMap_map]
      refine List.nodup_flatMap.2 ⟨fun child hchild =>
        ih ⟨child, hchild⟩ (h.hasPath_childTemplate hpath hchild), ?_⟩
      refine (h.nodup_childIds id).imp_of_mem fun {child other} hchild hother hne => ?_
      intro node hnode hnode'
      obtain ⟨entry, hentry, hsame⟩ := List.mem_map.1 hnode
      obtain ⟨entry', hentry', hsame'⟩ := List.mem_map.1 hnode'
      exact hne (h.eq_of_mem_subtree hpath hchild hother (hsame.trans hsame'.symm) hentry hentry')

/-- Each node is in the subtree of the root, by way of its parent. -/
theorem exists_mem_subtree_root (h : index.Branching) (hid : id < index.parts.length) :
    ∃ template, (template, id) ∈ index.subtree "/" root := by
  obtain ⟨path, hpath⟩ := h.exists_hasPath hid
  induction hpath with
  | root =>
    rw [subtree_eq]
    exact ⟨"/", List.mem_cons_self⟩
  | child hparent hchild ih =>
    obtain ⟨template, hmem⟩ := ih hparent.lt
    exact ⟨_, child_mem_subtree hmem hchild⟩

/-- The template `/` has the path to the root. -/
theorem hasPath_root (index : PathIndex) : index.HasPath (templateSegments "/") root := .root

/-- The nodes in the subtree of the root are all nodes, each of them once. -/
theorem subtree_root_perm (h : index.Branching) :
    ((index.subtree "/" root).map Prod.snd).Perm (List.range index.parts.length) := by
  refine (List.perm_ext_iff_of_nodup (h.nodup_subtree (hasPath_root index))
    List.nodup_range).2 fun id => ?_
  rw [List.mem_range]
  constructor
  · intro hmem
    obtain ⟨entry, hentry, rfl⟩ := List.mem_map.1 hmem
    exact (h.hasPath_of_mem_subtree (hasPath_root index) hentry).2.lt
  · intro hid
    obtain ⟨template, hmem⟩ := h.exists_mem_subtree_root hid
    exact List.mem_map.2 ⟨_, hmem, rfl⟩

/-- **The walk of a tree is the recursion over it.** The loop makes as many steps as the index has
nodes, which is as many as the recursion comes to. -/
theorem walk_eq (h : index.Branching) : index.walk = index.subtree "/" root := by
  have hlength : (index.subtree "/" root).length = index.parts.length := by
    rw [← List.length_map Prod.snd, h.subtree_root_perm.length_eq, List.length_range]
  have hstack : [("/", root)].flatMap (fun entry => index.subtree entry.1 entry.2) =
      index.subtree "/" root := by
    rw [List.flatMap_cons, List.flatMap_nil, List.append_nil]
  rw [walk, walkFrom_eq, hstack]
  rw [hstack]
  exact Nat.le_of_eq hlength

/-- A template is found at the node that has its segments for a path. -/
theorem find?_eq_some_iff (h : index.Branching) :
    index.find? template = some id ↔ index.HasPath (templateSegments template) id :=
  (hasPath_iff_descend h).symm

end Branching

/-! ## The walk -/

/-- **The walk lists the tree of an index in preorder, with templates that are found.** However an
index has grown by calls with proper segments, its walk is the recursion over the tree of its nodes,
in which children stand in the order of their creation. It lists each node once, no two templates in
it are the same, and each is found at the node that it is listed with. One path leads to each node,
and a text is found at a node exactly if its segments are that path.

**Proof sketch.** Each call keeps the nodes a tree (`branching_ofCalls`), so that a node has one
path (`Branching.hasPath_unique`), which look-ups follow (`hasPath_iff_descend`). In the recursion
the template of a node has the node's path for its segments; the paths in the subtrees of two
children part at the children, hence no node is repeated (`Branching.nodup_subtree`), and as each
has a path, none is left out. So the loop has steps enough to list what the recursion lists
(`walkFrom_eq`). -/
theorem walk_ofCalls {calls : List Call} (hcalls : ∀ call ∈ calls, call.IsProper) :
    (ofCalls calls).walk = ((ofCalls calls).tree root).preorder (ofCalls calls) "/" ∧
      (∀ id, ((ofCalls calls).childIds id).Pairwise (· < ·)) ∧
      ((ofCalls calls).walk.map Prod.snd).Perm (List.range (ofCalls calls).parts.length) ∧
      ((ofCalls calls).walk.map Prod.fst).Nodup ∧
      (∀ template id, (template, id) ∈ (ofCalls calls).walk →
        (ofCalls calls).find? template = some id) ∧
      (∀ id, id < (ofCalls calls).parts.length → ∃ path, (ofCalls calls).HasPath path id ∧
        ∀ other, (ofCalls calls).HasPath other id → other = path) ∧
      ∀ text id, (ofCalls calls).find? text = some id ↔
        (ofCalls calls).HasPath (templateSegments text) id := by
  have h := branching_ofCalls hcalls
  generalize ofCalls calls = index at h
  have hfound : ∀ template id, (template, id) ∈ index.walk → index.find? template = some id := by
    intro template id hmem
    rw [h.walk_eq] at hmem
    exact h.find?_eq_some_iff.2
      (h.hasPath_of_mem_subtree (Branching.hasPath_root index) hmem).2
  have hnodes : (index.walk.map Prod.snd).Perm (List.range index.parts.length) := by
    rw [h.walk_eq]
    exact h.subtree_root_perm
  refine ⟨h.walk_eq, h.ordered, hnodes, ?_, hfound, fun id hid => ?_,
    fun _ _ => h.find?_eq_some_iff⟩
  · -- a template that is listed twice is found at both nodes
    have hwalk : index.walk.Nodup := .of_map Prod.snd (hnodes.nodup_iff.2 List.nodup_range)
    refine hwalk.map_on fun entry hentry other hother hsame => ?_
    have hnode := hfound _ _ hentry
    rw [hsame, hfound _ _ hother] at hnode
    exact Prod.ext hsame (Option.some.inj hnode).symm
  · obtain ⟨path, hpath⟩ := h.exists_hasPath hid
    exact ⟨path, hpath, fun other hother => h.hasPath_unique hother hpath⟩

/-- Calls of which a later one adds a child to the older of two nodes. -/
def interleavedCalls : List Call :=
  [.getOrAdd root "users" .constant, .getOrAdd root "health" .constant,
    .getOrAdd 1 "\x7bid\x7d" .parameter, .bind 3 "id"]

/-- The walk comes to the child before the younger of the two nodes; a look-up does not mind slashes
that are missing or too many. -/
theorem walk_interleavedCalls :
    (ofCalls interleavedCalls).walk =
        [("/", 0), ("/users", 1), ("/users/\x7bid\x7d", 3), ("/health", 2)] ∧
      (ofCalls interleavedCalls).find? "users//\x7bid\x7d/" = some 3 ∧
      (ofCalls interleavedCalls).HasPath ["users", "\x7bid\x7d"] 3 := by
  have hcalls : ∀ call ∈ interleavedCalls, call.IsProper := by decide
  have hfind : (ofCalls interleavedCalls).find? "users//\x7bid\x7d/" = some 3 := by
    decide +kernel
  obtain ⟨-, -, -, -, -, -, hpath⟩ := walk_ofCalls hcalls
  exact ⟨by decide +kernel, hfind, (hpath _ 3).1 hfind⟩

end PathIndex

end ApiCatalog
