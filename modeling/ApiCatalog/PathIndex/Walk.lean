import ApiCatalog.PathIndex.Basic

set_option autoImplicit false

/-!
# Walking the path index

The nodes of an index in depth-first order, each with the template that leads to it, and the
index as a tree.

## Main definitions

* `PathIndex.walk`: the nodes with their templates, the root first, kept on a stack.
* `ApiCatalog.PathTree`: a tree of node numbers.
* `PathIndex.tree`: the nodes below a node as a tree.
-/

namespace ApiCatalog

/-- A tree of node numbers. -/
inductive PathTree where
  | node (id : Nat) (children : List PathTree)

namespace PathIndex

/-- The numbers of a node's children, in the order in which they were added. -/
def childIds (index : PathIndex) (id : Nat) : List Nat :=
  match index.part? id with
  | none => []
  | some part => part.children.values

/-- A child is a node of the index, with a greater number than its parent. -/
theorem lt_of_mem_childIds {index : PathIndex} {id child : Nat}
    (h : child ∈ index.childIds id) : id < child ∧ child < index.parts.length := by
  unfold childIds at h
  split at h
  · simp at h
  · rename_i part hpart
    exact index.descending id part hpart child h

/-- The segment of a node. -/
def segment (index : PathIndex) (id : Nat) : String :=
  ((index.part? id).map PathPart.segment).getD ""

/-- The template of a node below the template of its parent. -/
def childTemplate (template segment : String) : String :=
  if template.toList.getLast? = some '/' then template ++ segment else template ++ "/" ++ segment

/-- The children of a node with their templates. -/
def childEntries (index : PathIndex) (template : String) (id : Nat) : List (String × Nat) :=
  (index.childIds id).map fun child => (childTemplate template (index.segment child), child)

/-- Takes nodes from a stack, each time putting the node's children in its place. -/
def walkFrom (index : PathIndex) : Nat → List (String × Nat) → List (String × Nat)
  | 0, _ => []
  | _ + 1, [] => []
  | steps + 1, (template, id) :: stack =>
    (template, id) :: index.walkFrom steps (index.childEntries template id ++ stack)

/-- Every node with its template, depth first, the root first. Each node is taken from the stack
once, so that there are as many steps as nodes. -/
def walk (index : PathIndex) : List (String × Nat) :=
  index.walkFrom index.parts.length [("/", root)]

/-- The nodes below a node as a tree. -/
def tree (index : PathIndex) (id : Nat) : PathTree :=
  .node id ((index.childIds id).attach.map fun child => index.tree child.1)
termination_by index.parts.length - id
decreasing_by
  have := lt_of_mem_childIds child.2
  omega

end PathIndex

namespace PathTree

mutual

/-- The nodes of a tree with their templates, each before its children. -/
def preorder (index : PathIndex) (template : String) : PathTree → List (String × Nat)
  | .node id children => (template, id) :: preorderAll index template children

/-- The nodes of the trees below a template. -/
def preorderAll (index : PathIndex) (template : String) : List PathTree → List (String × Nat)
  | [] => []
  | .node id children :: rest =>
    preorder index (PathIndex.childTemplate template (index.segment id)) (.node id children) ++
      preorderAll index template rest

end

end PathTree

end ApiCatalog
