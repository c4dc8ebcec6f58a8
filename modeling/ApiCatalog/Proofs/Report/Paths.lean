import ApiCatalog.Proofs.PathIndex.Preorder
import ApiCatalog.Proofs.PathIndex.Tidy
import ApiCatalog.Proofs.Report.Endpoints

set_option autoImplicit false

/-!
# The nodes of a report

A path index is gone through in three ways: its nodes are numbered, the walk takes them from a
stack, and a report nests them. Here a report is read back as a list of nodes, and the three are
compared: in an index that grows by proper segments each comes to every node and every endpoint
once, the walk and the report in the same order.

## Main definitions

* `PathIndex.listedEndpoints`: the endpoints of the nodes that the walk lists.
* `PathIndex.ListedOnce`: the walk comes to each node and each endpoint once.
* `Report.listed`: the nodes of a nested object with their templates, read back from it.
* `Report.Lists`: a report has the nodes and the endpoints of the walk, in its order.

## Main results

* `PathIndex.Branching.listedOnce`: the walk of an index that grows by proper segments.
* `Report.listed_pathTree`: reading back what is nested gives the recursion over the tree.
* `Report.lists_of_branching`: the report of an index that grows by proper segments.
-/

namespace ApiCatalog

/-! ## The endpoints of the walk -/

namespace PathIndex

variable {index : PathIndex}

/-- The endpoints of a node; none if no node has the number. -/
def endpointsAt (index : PathIndex) (id : Nat) : List Endpoint :=
  ((index.part? id).map PathPart.endpointList).getD []

/-- The endpoints of the nodes that the walk lists, node by node. -/
def listedEndpoints (index : PathIndex) : List Endpoint :=
  index.walk.flatMap fun entry => index.endpointsAt entry.2

/-- The walk lists each node and each endpoint once, and no template twice. -/
structure ListedOnce (index : PathIndex) : Prop where
  nodes : (index.walk.map Prod.snd).Perm (List.range index.parts.length)
  templates : (index.walk.map Prod.fst).Nodup
  endpoints : index.listedEndpoints.Perm index.endpoints

/-- The endpoints of an index are those of its numbers, one after the other. -/
theorem endpoints_eq (index : PathIndex) :
    index.endpoints = (List.range index.parts.length).flatMap index.endpointsAt := by
  have hparts : (List.range index.parts.length).map index.endpointsAt =
      index.parts.map PathPart.endpointList := by
    refine List.ext_getElem (by simp) fun id hid hid' => ?_
    have hlt : id < index.parts.length := by simpa using hid
    simp [endpointsAt, part?, List.getElem?_eq_getElem hlt]
  rw [endpoints, List.flatMap_def, List.flatMap_def, hparts]

namespace Branching

/-- The walk begins with the root. -/
theorem walk_eq_cons (h : index.Branching) : ∃ rest, index.walk = ("/", root) :: rest :=
  ⟨_, h.walk_eq.trans (subtree_eq "/" root)⟩

/-- The walk lists all nodes, each of them once. -/
theorem walk_perm (h : index.Branching) :
    (index.walk.map Prod.snd).Perm (List.range index.parts.length) := by
  rw [h.walk_eq]
  exact h.subtree_root_perm

/-- No two nodes of the walk have one template, since a template leads to one node. -/
theorem nodup_templates (h : index.Branching) : (index.walk.map Prod.fst).Nodup := by
  have hfound : ∀ entry ∈ index.walk, index.find? entry.1 = some entry.2 := by
    rw [h.walk_eq]
    exact fun entry hentry =>
      h.find?_eq_some_iff.2 (h.hasPath_of_mem_subtree (hasPath_root index) hentry).2
  have hwalk : index.walk.Nodup := .of_map Prod.snd (h.walk_perm.nodup_iff.2 List.nodup_range)
  refine hwalk.map_on fun entry hentry other hother hsame => ?_
  have hnode := hfound entry hentry
  rw [hsame, hfound other hother] at hnode
  exact Prod.ext hsame (Option.some.inj hnode).symm

/-- The endpoints of the walk are those of the index: it comes to their nodes once. -/
theorem listedEndpoints_perm (h : index.Branching) :
    index.listedEndpoints.Perm index.endpoints := by
  have hlisted : index.listedEndpoints = (index.walk.map Prod.snd).flatMap index.endpointsAt := by
    rw [List.flatMap_map]
    rfl
  rw [hlisted, endpoints_eq]
  exact h.walk_perm.flatMap_right index.endpointsAt

/-- **The walk comes to each node and each endpoint once.** -/
theorem listedOnce (h : index.Branching) : index.ListedOnce :=
  ⟨h.walk_perm, h.nodup_templates, h.listedEndpoints_perm⟩

end Branching

end PathIndex

namespace Report

/-! ## Reading a report -/

/-- A node as it is read back from a report: its template and its members, the children
excepted. -/
structure ListedNode where
  template : String
  members : List (String × Json)

/-- The members of a node that are not its children. -/
def ownMembers (members : List (String × Json)) : List (String × Json) :=
  members.filter fun member => member.1 ≠ "children"

mutual

/-- The nodes of a nested object with their templates, each before its children. -/
def listed (template : String) : Json → List ListedNode
  | .object members => ⟨template, ownMembers members⟩ :: listedIn template members
  | _ => []

/-- The nodes below the members of a node, which are those below its children. -/
def listedIn (template : String) : List (String × Json) → List ListedNode
  | [] => []
  | (name, value) :: rest =>
    (if name = "children" then listedChildren template value else []) ++ listedIn template rest

/-- The nodes of the children of a node. -/
def listedChildren (template : String) : Json → List ListedNode
  | .object members => listedEach template members
  | _ => []

/-- The nodes of objects that stand with their segments. -/
def listedEach (template : String) : List (String × Json) → List ListedNode
  | [] => []
  | (segment, value) :: rest =>
    listed (PathIndex.childTemplate template segment) value ++ listedEach template rest

end

/-- The endpoints that a node has in a report, with their keys. -/
def ListedNode.endpoints (node : ListedNode) : List (String × Json) :=
  match Json.member? "endpoints" (.object node.members) with
  | some (.object members) => members
  | _ => []

/-- The text that a node has in a report under a name. -/
def ListedNode.text? (node : ListedNode) (name : String) : Option String :=
  readTextOf? name (.object node.members)

/-- The members of the node with a number; none if there is no such node. -/
def membersAt (index : PathIndex) (id : Nat) : List (String × Json) :=
  ((index.part? id).map partMembers).getD []

/-- A node that the walk lists, as a report has it. -/
def listedNode (index : PathIndex) (entry : String × Nat) : ListedNode :=
  ⟨entry.1, membersAt index entry.2⟩

/-- The nodes that are read back from a report are those of the walk, in its order, with their
templates, segments, kinds and schemas. The endpoints are those of the nodes, in the same order and
under their methods, and each of them is what its object is read as. -/
structure Lists (index : PathIndex) : Prop where
  nodes : listed "/" (paths index) = index.walk.map (listedNode index)
  segments : (listed "/" (paths index)).map (·.text? "segment") =
    index.walk.map fun entry => (index.part? entry.2).map PathPart.segment
  kinds : (listed "/" (paths index)).map (·.text? "kind") =
    index.walk.map fun entry => (index.part? entry.2).map fun part => part.kind.segmentKind.label
  schemas : (listed "/" (paths index)).map (·.text? "model_ref") =
    index.walk.map fun entry => (index.part? entry.2).bind PathPart.schema?
  endpoints : (listed "/" (paths index)).flatMap ListedNode.endpoints =
    index.listedEndpoints.map fun entry => (entry.method.name, endpoint entry)
  legible : ∀ entry ∈ index.listedEndpoints, readEndpoint? (endpoint entry) = some entry

/-! ## What is read back -/

variable (index : PathIndex)

/-- What a node has besides its children does not go by their name. -/
theorem ne_children_of_mem_membersAt {id : Nat} {member : String × Json}
    (h : member ∈ membersAt index id) : member.1 ≠ "children" := by
  unfold membersAt at h
  cases hpart : index.part? id with
  | none =>
    rw [hpart] at h
    cases h
  | some part =>
    rw [hpart] at h
    have hmem : member ∈ partMembers part := h
    simp only [partMembers, List.mem_append, List.mem_cons, List.not_mem_nil, or_false,
      Option.mem_toList, Option.map_eq_some_iff] at hmem
    rcases hmem with ((rfl | rfl) | ⟨_, -, rfl⟩) | ⟨_, -, rfl⟩ <;> simp

/-- The children are told apart from what a node has besides. -/
theorem ownMembers_append {id : Nat} {children : List (String × Json)}
    (h : ∀ member ∈ children, member.1 = "children") :
    ownMembers (membersAt index id ++ children) = membersAt index id := by
  have hown : ownMembers (membersAt index id) = membersAt index id :=
    List.filter_eq_self.2 fun member hmember => by
      simpa using ne_children_of_mem_membersAt index hmember
  have hnone : ownMembers children = [] :=
    List.filter_eq_nil_iff.2 fun member hmember => by simp [h member hmember]
  rw [ownMembers, List.filter_append, ← ownMembers, ← ownMembers, hown, hnone, List.append_nil]

/-- Members that are not the children have no nodes below them. -/
theorem listedIn_append {template : String} {members children : List (String × Json)}
    (h : ∀ member ∈ members, member.1 ≠ "children") :
    listedIn template (members ++ children) = listedIn template children := by
  induction members with
  | nil => rfl
  | cons member rest ih =>
    rw [List.cons_append, listedIn, if_neg (h member List.mem_cons_self), List.nil_append]
    exact ih fun other hother => h other (List.mem_cons_of_mem _ hother)

mutual

/-- **Reading back what is nested gives the recursion over the tree.** -/
theorem listed_pathTree (template : String) (tree : PathTree) :
    listed template (pathTree index tree) =
      (tree.preorder index template).map (listedNode index) := by
  match tree with
  -- a node without children is written without their member, so the two cases differ
  | .node id [] =>
    have hmembers : pathTree index (.node id []) = .object (membersAt index id ++ []) := rfl
    rw [hmembers, listed, ownMembers_append index (by simp),
      listedIn_append fun _ => ne_children_of_mem_membersAt index]
    rfl
  | .node id (child :: rest) =>
    have hmembers : pathTree index (.node id (child :: rest)) = .object (membersAt index id ++
        [("children", .object (pathTrees index (child :: rest)))]) := rfl
    rw [hmembers, listed, ownMembers_append index (by simp),
      listedIn_append fun _ => ne_children_of_mem_membersAt index, listedIn, if_pos rfl,
      listedChildren, listedEach_pathTrees template (child :: rest), listedIn, List.append_nil]
    rfl

/-- Reading back trees by segment gives the recursions over them, one after the other. -/
theorem listedEach_pathTrees (template : String) (trees : List PathTree) :
    listedEach template (pathTrees index trees) =
      (PathTree.preorderAll index template trees).map (listedNode index) := by
  match trees with
  | [] => rfl
  | .node id children :: rest =>
    rw [pathTrees, listedEach, listed_pathTree _ (.node id children),
      listedEach_pathTrees template rest, PathTree.preorderAll, List.map_append]

end

/-- The texts of a node are read back from a report. -/
theorem text?_listedNode (entry : String × Nat) :
    (listedNode index entry).text? "segment" = (index.part? entry.2).map PathPart.segment ∧
      (listedNode index entry).text? "kind" =
        ((index.part? entry.2).map fun part => part.kind.segmentKind.label) ∧
      (listedNode index entry).text? "model_ref" = (index.part? entry.2).bind PathPart.schema? := by
  unfold ListedNode.text? listedNode membersAt
  cases hpart : index.part? entry.2 with
  | none => exact ⟨rfl, rfl, rfl⟩
  | some part =>
    obtain ⟨segment, kind, children, endpoints⟩ := part
    cases hschema : kind.schema? <;> cases endpoints <;>
      simp [readTextOf?, readText?, Json.member?, partMembers, PathPart.schema?, hschema]

/-- The endpoints of a node are read back from a report, under their methods if that is where they
stand. -/
theorem endpoints_listedNode (entry : String × Nat)
    (h : ∀ part, index.part? entry.2 = some part → part.Tidy) :
    (listedNode index entry).endpoints =
      (index.endpointsAt entry.2).map fun entry => (entry.method.name, endpoint entry) := by
  unfold ListedNode.endpoints listedNode membersAt PathIndex.endpointsAt
  cases hpart : index.part? entry.2 with
  | none => rfl
  | some part =>
    have hmethods := (h part hpart).methods
    obtain ⟨segment, kind, children, endpoints⟩ := part
    cases endpoints with
    | none =>
      cases hschema : kind.schema? <;>
        simp [Json.member?, partMembers, PathPart.schema?, PathPart.endpointList, hschema]
    | some endpoints =>
      have hkeys : (endpoints.entries.map fun entry => (entry.1.name, endpoint entry.2)) =
          endpoints.values.map fun entry => (entry.method.name, endpoint entry) := by
        rw [OrderedMap.values, List.map_map]
        exact List.map_congr_left fun entry hentry => by
          rw [hmethods endpoints rfl entry hentry, Function.comp_apply]
      cases hschema : kind.schema? <;>
        simp [Json.member?, partMembers, PathPart.schema?, PathPart.endpointList, hschema, mapping,
          hkeys]

/-- **A report has the nodes and the endpoints of the walk.** -/
theorem lists_of_branching {index : PathIndex} (h : index.Branching) (htidy : index.Tidy)
    (hlegible : ∀ entry ∈ index.endpoints, entry.Legible) : Lists index := by
  have hnodes : listed "/" (paths index) = index.walk.map (listedNode index) := by
    rw [h.walk_eq]
    exact listed_pathTree index "/" (index.tree PathIndex.root)
  have htexts {name : String} {value : String × Nat → Option String}
      (hvalue : ∀ entry, (listedNode index entry).text? name = value entry) :
      (listed "/" (paths index)).map (·.text? name) = index.walk.map value := by
    rw [hnodes, List.map_map]
    exact List.map_congr_left fun entry _ => hvalue entry
  constructor
  case nodes => exact hnodes
  case segments => exact htexts fun entry => (text?_listedNode index entry).1
  case kinds => exact htexts fun entry => (text?_listedNode index entry).2.1
  case schemas => exact htexts fun entry => (text?_listedNode index entry).2.2
  case endpoints =>
    rw [hnodes, List.flatMap_map, PathIndex.listedEndpoints, List.map_flatMap]
    refine congrArg index.walk.flatMap (funext fun entry => ?_)
    exact endpoints_listedNode index entry fun part hpart =>
      htidy.parts part (List.mem_of_getElem? hpart)
  case legible =>
    exact fun entry hentry =>
      readEndpoint?_endpoint (hlegible entry (h.listedEndpoints_perm.mem_iff.1 hentry))

end Report

end ApiCatalog
