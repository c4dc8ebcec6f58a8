import ApiCatalog.Document.Basic
import Mathlib.Data.List.Basic

set_option autoImplicit false

/-!
# Entries of paths

What a document says about its paths is made of entries: the parameters of a path and of its
operations, request bodies and responses. A single entry can be deleted, and the rest of the
document stays as it is.

## Main definitions

* `ApiCatalog.PathEntry`: the place of an entry.
* `Document.modifyPath`, `PathItem.modifyOperation`: changes of a path and of an operation.
* `Document.without`: a document without an entry.

## Main results

* `Document.pathEntries_modifyPath`: the paths of a document with a change of one of them.
* `PathItem.operations_modifyOperation`: the operations of a path with a change of one of them.
-/

namespace ApiCatalog

/-! ## Changes of a map -/

namespace SortedMap

variable {ν : Type} {key : String}

/-- A map with a change of the value of a key. -/
def modify (map : SortedMap ν) (key : String) (change : ν → ν) : SortedMap ν where
  entries := map.entries.map fun entry =>
    (entry.1, if entry.1 = key then change entry.2 else entry.2)
  sorted := List.pairwise_map.2 map.sorted

/-- A map without a key. -/
def erase (map : SortedMap ν) (key : String) : SortedMap ν where
  entries := map.entries.filter fun entry => entry.1 ≠ key
  sorted := map.sorted.filter _

variable {map : SortedMap ν} {value : ν} {before after : List (String × ν)}

/-- No entry before or after one with a certain key has that key. -/
theorem ne_of_mem_entries (h : map.entries = before ++ (key, value) :: after) :
    ∀ entry ∈ before ++ after, entry.1 ≠ key := by
  have hsorted := map.sorted
  rw [h, List.pairwise_append, List.pairwise_cons] at hsorted
  obtain ⟨-, ⟨hafter, -⟩, hbefore⟩ := hsorted
  rintro entry hentry rfl
  rcases List.mem_append.1 hentry with hentry | hentry
  · exact String.lt_irrefl entry.1 (hbefore entry hentry (_, value) List.mem_cons_self)
  · exact String.lt_irrefl entry.1 (hafter entry hentry)

/-- The entries of a map with a change of one value. -/
theorem entries_modify (h : map.entries = before ++ (key, value) :: after) (change : ν → ν) :
    (map.modify key change).entries = before ++ (key, change value) :: after := by
  have hkept : ∀ entries ⊆ before ++ after,
      (entries.map fun entry => (entry.1, if entry.1 = key then change entry.2 else entry.2)) =
        entries := fun entries hsubset =>
    (List.map_congr_left fun entry hentry => by
      rw [if_neg (ne_of_mem_entries h entry (hsubset hentry))]; rfl).trans (List.map_id entries)
  show map.entries.map _ = _
  rw [h, List.map_append, List.map_cons, if_pos rfl, hkept _ (List.subset_append_left _ _),
    hkept _ (List.subset_append_right _ _)]

/-- The entries of a map without a key. -/
theorem entries_erase (h : map.entries = before ++ (key, value) :: after) :
    (map.erase key).entries = before ++ after := by
  show map.entries.filter _ = _
  rw [h, List.filter_append, List.filter_cons_of_neg (by simp), ← List.filter_append]
  exact List.filter_eq_self.2 fun entry hentry => by simpa using ne_of_mem_entries h entry hentry

end SortedMap

/-! ## Changes of paths and operations -/

namespace PathItem

/-- A path with a change of the operation of a method. -/
def modifyOperation (item : PathItem) (method : HttpMethod) (change : Operation → Operation) :
    PathItem :=
  match method with
  | .get => { item with get := item.get.map change }
  | .put => { item with put := item.put.map change }
  | .post => { item with post := item.post.map change }
  | .delete => { item with delete := item.delete.map change }
  | .options => { item with options := item.options.map change }
  | .head => { item with head := item.head.map change }
  | .patch => { item with patch := item.patch.map change }
  | .trace => { item with trace := item.trace.map change }

variable (item : PathItem) (method : HttpMethod) (change : Operation → Operation)

/-- The operation of that method is changed, and no other one. -/
theorem operation?_modifyOperation (other : HttpMethod) :
    (item.modifyOperation method change).operation? other =
      (item.operation? other).map fun operation =>
        if other = method then change operation else operation := by
  cases method <;> cases other <;> first | rfl | exact Option.map_id'.symm

/-- The parameters that the operations share stay as they are. -/
theorem parameters_modifyOperation :
    (item.modifyOperation method change).parameters = item.parameters := by
  cases method <;> rfl

/-- **The operations of a path with a change of one of them.** It is changed wherever it is
offered. -/
theorem operations_modifyOperation :
    (item.modifyOperation method change).operations = item.operations.map fun entry =>
      (entry.1, if entry.1 = method then change entry.2 else entry.2) := by
  rw [operations, operations, List.map_filterMap]
  refine List.filterMap_congr fun offered _ => ?_
  rw [operation?_modifyOperation]
  cases item.operation? offered <;> rfl

/-- The operations with a change of the first one that is offered for its method. -/
theorem operations_modifyOperation_of_first {operation : Operation}
    {earlier later : List (HttpMethod × Operation)}
    (h : item.operations = earlier ++ (method, operation) :: later)
    (hfirst : ∀ entry ∈ earlier, entry.1 ≠ method) :
    (item.modifyOperation method change).operations =
      earlier ++ (method, change operation) :: later.map fun entry =>
        (entry.1, if entry.1 = method then change entry.2 else entry.2) := by
  rw [operations_modifyOperation, h, List.map_append, List.map_cons, if_pos rfl]
  refine congrArg (· ++ _)
    ((List.map_congr_left fun entry hentry => ?_).trans (List.map_id earlier))
  rw [if_neg (hfirst entry hentry)]
  rfl

end PathItem

namespace Document

/-- A document with a change of what it says about a template. -/
def modifyPath (document : Document) (template : String) (change : PathItem → PathItem) :
    Document :=
  { document with paths := document.paths.map fun paths => paths.modify template change }

/-- **The paths of a document with a change of one of them.** -/
theorem pathEntries_modifyPath {document : Document} {template : String} {item : PathItem}
    {earlier later : List (String × PathItem)}
    (h : document.pathEntries = earlier ++ (template, item) :: later)
    (change : PathItem → PathItem) :
    (document.modifyPath template change).pathEntries =
      earlier ++ (template, change item) :: later := by
  unfold pathEntries modifyPath at *
  cases hpaths : document.paths with
  | none =>
    rw [hpaths] at h
    exact absurd h.symm (by simp)
  | some paths =>
    rw [hpaths] at h
    exact SortedMap.entries_modify h change

end Document

/-! ## Entries -/

/-- The place of an entry in the paths of a document: a parameter that the operations of a path
share, by its position, or a parameter, the request body or a response of an operation. -/
inductive PathEntry where
  | sharedParameter (template : String) (position : Nat)
  | ownParameter (template : String) (method : HttpMethod) (position : Nat)
  | requestBody (template : String) (method : HttpMethod)
  | response (template : String) (method : HttpMethod) (key : String)
deriving DecidableEq, Repr

namespace Document

/-- A document with a change of an operation. -/
def modifyOperation (document : Document) (template : String) (method : HttpMethod)
    (change : Operation → Operation) : Document :=
  document.modifyPath template fun item => item.modifyOperation method change

/-- A document without an entry. -/
def without (document : Document) : PathEntry → Document
  | .sharedParameter template position =>
    document.modifyPath template fun item =>
      { item with parameters := item.parameters.eraseIdx position }
  | .ownParameter template method position =>
    document.modifyOperation template method fun operation =>
      { operation with parameters := operation.parameters.eraseIdx position }
  | .requestBody template method =>
    document.modifyOperation template method fun operation => { operation with requestBody := none }
  | .response template method key =>
    document.modifyOperation template method fun operation =>
      { operation with responses := operation.responses.map fun responses => responses.erase key }

end Document

end ApiCatalog
