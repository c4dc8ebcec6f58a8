import ApiCatalog.Http.Endpoint

set_option autoImplicit false

/-!
# The path index

A trie of path segments. Its nodes are numbered in the order of their creation; number 0 is the
root, whose children are the first segments of the templates.

## Main definitions

* `ApiCatalog.PathPart`: a node with its children and endpoints.
* `ApiCatalog.PathIndex`: the nodes, each child having a greater number than its parent.
* `PathIndex.getOrAdd`, `PathIndex.bind`, `PathIndex.insertEndpoint`: the ways in which an index
  grows.
* `PathIndex.find?`: the node of a template.

## Main results

* `PathIndex.part?_update`, `PathIndex.part?_addPart`: the nodes after a change.
-/

namespace ApiCatalog

/-- Whether a segment is text or stands for a parameter. -/
inductive SegmentKind where
  | constant
  | parameter
deriving DecidableEq, Repr

/-- The word for a kind of segment. -/
def SegmentKind.label : SegmentKind → String
  | .constant => "constant"
  | .parameter => "parameter"

/-- Whether a segment is written in braces. -/
def isParameterSegment (segment : String) : Bool :=
  match segment.toList with
  | '{' :: rest => rest.getLast? = some '}'
  | _ => false

/-- The text between the braces of a parameter segment; any other segment as it is. -/
def parameterName (segment : String) : String :=
  match segment.toList with
  | '{' :: rest => if rest.getLast? = some '}' then String.ofList rest.dropLast else segment
  | _ => segment

/-- The non-empty parts between the slashes of a template. -/
def templateSegments (template : String) : List String :=
  ((template.toList.splitOnP (· = '/')).filter fun part => !part.isEmpty).map String.ofList

/-- What a node of the index stands for; a parameter may be bound to its schema. -/
inductive PartKind where
  | constant
  | parameter (schema : Option ModelName)
deriving DecidableEq, Repr

namespace PartKind

/-- The kind of a node's segment. -/
def segmentKind : PartKind → SegmentKind
  | .constant => .constant
  | .parameter _ => .parameter

/-- The schema that a parameter is bound to. -/
def schema? : PartKind → Option ModelName
  | .constant => none
  | .parameter schema => schema

/-- A node kind that is bound to nothing. -/
def unbound : SegmentKind → PartKind
  | .constant => .constant
  | .parameter => .parameter none

end PartKind

/-- A node of the index. -/
structure PathPart where
  segment : String
  kind : PartKind
  children : OrderedMap String Nat
  endpoints : Option (OrderedMap HttpMethod Endpoint)
deriving DecidableEq

namespace PathPart

/-- A node without children and endpoints. -/
def leaf (segment : String) (kind : PartKind) : PathPart :=
  ⟨segment, kind, ∅, none⟩

/-- The schema that a node is bound to. -/
def schema? (part : PathPart) : Option ModelName :=
  part.kind.schema?

/-- The endpoint of a node for a method. -/
def endpoint? (part : PathPart) (method : HttpMethod) : Option Endpoint :=
  part.endpoints.bind fun endpoints => endpoints.find? method

/-- The endpoints of a node, in the order in which they came in. -/
def endpointList (part : PathPart) : List Endpoint :=
  match part.endpoints with
  | none => []
  | some endpoints => endpoints.values

end PathPart

/-- Why an index refuses a change. -/
inductive PathIndexError where
  /-- The segment exists as a node of the other kind. -/
  | kindMismatch (segment : String) (existing : SegmentKind)
  /-- The node has an endpoint for the method. -/
  | duplicateMethod (segment : String) (method : HttpMethod)
  /-- The node is no parameter, so that it cannot be bound. -/
  | notAParameter (segment : String)
  /-- No node has the number. -/
  | unknownPart (id : Nat)
deriving DecidableEq, Repr

/-- The wording of a refused change. -/
def PathIndexError.message : PathIndexError → String
  | .kindMismatch segment existing =>
    "segment '" ++ segment ++ "' already exists as a " ++ existing.label ++ " node"
  | .duplicateMethod segment method =>
    "method " ++ method.name ++ " is already defined on segment '" ++ segment ++ "'"
  | .notAParameter segment => "segment '" ++ segment ++ "' is not a parameter node"
  | .unknownPart id => "no path part has the number " ++ toString id

/-- The nodes of a trie of path segments, in the order of their creation. -/
structure PathIndex where
  parts : List PathPart
  rooted : parts ≠ []
  descending : ∀ (id : Nat) (part : PathPart), parts[id]? = some part →
    ∀ child ∈ part.children.values, id < child ∧ child < parts.length
deriving DecidableEq

namespace PathIndex

/-- The number of the root. -/
def root : Nat := 0

/-- The index that has only the root. -/
def empty : PathIndex where
  parts := [.leaf "/" .constant]
  rooted := by simp
  descending := by
    intro id part h child hc
    match id with
    | 0 =>
      simp only [List.getElem?_cons_zero, Option.some.injEq] at h
      subst h
      exact absurd hc (List.not_mem_nil)
    | n + 1 => simp at h

instance : EmptyCollection PathIndex := ⟨empty⟩

instance : Inhabited PathIndex := ⟨empty⟩

/-- The number of nodes, the root not counted. -/
def size (index : PathIndex) : Nat :=
  index.parts.length - 1

/-- The node of a number. -/
def part? (index : PathIndex) (id : Nat) : Option PathPart :=
  index.parts[id]?

/-- Changes the node of a number, its children excepted. -/
def update (index : PathIndex) (id : Nat) (change : PathPart → PathPart)
    (keeps : ∀ part, (change part).children = part.children) : PathIndex where
  parts := index.parts.modify id change
  rooted := by
    intro h
    exact index.rooted (List.eq_nil_of_length_eq_zero
      (by rw [← List.length_modify change index.parts id, h]; rfl))
  descending := by
    intro i part h child hc
    rw [List.getElem?_modify] at h
    rw [List.length_modify]
    cases hp : index.parts[i]? with
    | none => rw [hp] at h; simp at h
    | some old =>
      rw [hp] at h
      have hchildren : part.children = old.children := by
        rw [← Option.some.inj h]
        split
        · exact keeps old
        · rfl
      rw [hchildren] at hc
      exact index.descending i old hp child hc

/-- A node that has `child` as the child of a segment. -/
def addChild (segment : String) (child : Nat) (part : PathPart) : PathPart :=
  { part with children := part.children.insert segment child }

/-- Adds a node below a parent. -/
def addPart (index : PathIndex) (parent : Nat) (segment : String) (kind : PartKind) :
    PathIndex where
  parts := index.parts.modify parent (addChild segment index.parts.length) ++
    [.leaf segment kind]
  rooted := by simp
  descending := by
    intro i part h child hc
    rw [List.length_append, List.length_modify, List.length_singleton]
    rw [List.getElem?_append] at h
    split at h
    · rename_i hi
      rw [List.length_modify] at hi
      rw [List.getElem?_modify] at h
      cases hp : index.parts[i]? with
      | none => rw [hp] at h; simp at h
      | some old =>
        rw [hp] at h
        replace h := Option.some.inj h
        dsimp only at h
        by_cases hip : parent = i
        · rw [if_pos hip] at h
          subst h
          rcases OrderedMap.mem_values_insert hc with rfl | hc
          · omega
          · have := index.descending i old hp child hc
            omega
        · rw [if_neg hip] at h
          subst h
          have := index.descending i old hp child hc
          omega
    · rename_i hi
      rw [List.getElem?_singleton] at h
      split at h
      · simp only [Option.some.injEq] at h
        subst h
        exact absurd hc (List.not_mem_nil)
      · cases h

/-- A change is seen at its node and at no other. -/
theorem part?_update (index : PathIndex) (id : Nat) (change : PathPart → PathPart)
    (keeps : ∀ part, (change part).children = part.children) (i : Nat) :
    (index.update id change keeps).part? i =
      if i = id then (index.part? i).map change else index.part? i := by
  unfold part? update
  rw [List.getElem?_modify]
  by_cases h : i = id
  · subst h
    simp
  · have h' : ¬ id = i := fun e => h e.symm
    simp [h, h']

/-- A new node gets the next free number; beside that only its parent changes. -/
theorem part?_addPart (index : PathIndex) (parent : Nat) (segment : String) (kind : PartKind)
    (i : Nat) :
    (index.addPart parent segment kind).part? i =
      if i = index.parts.length then some (.leaf segment kind)
      else if i = parent then (index.part? i).map (addChild segment index.parts.length)
      else index.part? i := by
  unfold part? addPart
  rw [List.getElem?_append, List.length_modify, List.getElem?_modify]
  by_cases hlt : i < index.parts.length
  · have hne : ¬ i = index.parts.length := Nat.ne_of_lt hlt
    by_cases h : i = parent
    · subst h
      simp [hlt, hne]
    · have h' : ¬ parent = i := fun e => h e.symm
      simp [hlt, hne, h, h']
  · by_cases h : i = index.parts.length
    · simp [h]
    · have hnone : index.parts[i]? = none := List.getElem?_eq_none (Nat.le_of_not_lt hlt)
      have hpos : ¬ i - index.parts.length = 0 := by omega
      rw [if_neg hlt, if_neg h, hnone, List.getElem?_singleton, if_neg hpos]
      simp

/-- A new node adds one to the number of nodes. -/
theorem length_addPart (index : PathIndex) (parent : Nat) (segment : String) (kind : PartKind) :
    (index.addPart parent segment kind).parts.length = index.parts.length + 1 := by
  simp [addPart]

/-- The child of a node for a segment, which is added if there is none. A child that exists must
be of the kind asked for. -/
def getOrAdd (index : PathIndex) (parent : Nat) (segment : String) (kind : SegmentKind) :
    Except PathIndexError (Nat × PathIndex) :=
  match index.part? parent with
  | none => .error (.unknownPart parent)
  | some part =>
    match part.children.find? segment with
    | none => .ok (index.parts.length, index.addPart parent segment (.unbound kind))
    | some child =>
      match index.part? child with
      | none => .error (.unknownPart child)
      | some existing =>
        if existing.kind.segmentKind = kind then .ok (child, index)
        else .error (.kindMismatch segment existing.kind.segmentKind)

/-- A parameter node that is bound to a schema, unless it is bound already. -/
def bindPart (schema : ModelName) (part : PathPart) : PathPart :=
  match part.kind with
  | .parameter none => { part with kind := .parameter (some schema) }
  | _ => part

/-- Binds a parameter node to a schema and gives the schema that it is bound to then. The first
binding is kept. -/
def bind (index : PathIndex) (id : Nat) (schema : ModelName) :
    Except PathIndexError (ModelName × PathIndex) :=
  match index.part? id with
  | none => .error (.unknownPart id)
  | some part =>
    match part.kind with
    | .constant => .error (.notAParameter part.segment)
    | .parameter bound =>
      .ok (bound.getD schema, index.update id (bindPart schema) (by
        intro part
        unfold bindPart
        split <;> rfl))

/-- A node with one more endpoint. -/
def addEndpoint (endpoint : Endpoint) (part : PathPart) : PathPart :=
  { part with endpoints := some ((part.endpoints.getD ∅).insert endpoint.method endpoint) }

/-- Gives a node an endpoint for a method that it has none for. -/
def insertEndpoint (index : PathIndex) (id : Nat) (endpoint : Endpoint) :
    Except PathIndexError PathIndex :=
  match index.part? id with
  | none => .error (.unknownPart id)
  | some part =>
    match part.endpoint? endpoint.method with
    | some _ => .error (.duplicateMethod part.segment endpoint.method)
    | none => .ok (index.update id (addEndpoint endpoint) fun _ => rfl)

/-- The node that segments lead to from a node. -/
def descend (index : PathIndex) : Nat → List String → Option Nat
  | id, [] => some id
  | id, segment :: rest =>
    match index.part? id with
    | none => none
    | some part =>
      match part.children.find? segment with
      | none => none
      | some child => index.descend child rest

/-- The node of a template. -/
def find? (index : PathIndex) (template : String) : Option Nat :=
  index.descend root (templateSegments template)

/-- The endpoints of all nodes, by the number of the node. -/
def endpoints (index : PathIndex) : List Endpoint :=
  index.parts.flatMap PathPart.endpointList

end PathIndex

end ApiCatalog
