import ApiCatalog.Collections.Remaining
import ApiCatalog.Document.Basic

set_option autoImplicit false

/-!
# Looking components up

A reference is looked up among the components of the kind expected. A component that is itself a
reference stands for what that reference leads to.

## Main definitions

* `ApiCatalog.Lookup`: the outcome of looking a reference up.
* `ApiCatalog.lookUp`: the component that a reference leads to, through any number of aliases.
* `Document.schema`, `Document.parameter`, `Document.requestBody`, `Document.response`: what is
  written in place, or else looked up.

## Main results

* `ApiCatalog.mem_keys_of_lookUp`: a reference that leads to a component names an entry.
-/

namespace ApiCatalog

/-- The outcome of looking a reference up: a component, a reason why there is none, or the end of
the extraction. -/
abbrev Lookup (α : Type) := Except Abort (Except ReferenceError α)

variable {α : Type}

/-- The name under which a reference has to be looked up among components of a kind. -/
def Reference.nameFor (kind : ComponentKind) (path : String) : Lookup String :=
  match Reference.ofPath path with
  | .error abort => .error abort
  | .ok reference =>
    match reference.kind with
    | .error error => .ok (.error error)
    | .ok found =>
      if found = kind then .ok (.ok reference.name)
      else .ok (.error (.mismatchedType found kind))

/-- Looks a reference up after the entries `visited` have turned out to be references. -/
def lookUpFrom (kind : ComponentKind) (entries : SortedMap (OrReference α))
    (visited : List String) (path : String) : Lookup α :=
  match Reference.nameFor kind path with
  | .error abort => .error abort
  | .ok (.error error) => .ok (.error error)
  | .ok (.ok name) =>
    match _h : entries.find? name with
    | none => .ok (.error (.unresolvable path))
    | some (.inline value) => .ok (.ok value)
    | some (.reference next) =>
      if _hv : name ∈ visited then .error (.endlessAlias path)
      else lookUpFrom kind entries (name :: visited) next
termination_by remaining entries.keys visited
decreasing_by exact remaining_lt (SortedMap.mem_keys_of_find? _h) _hv

/-- The component of a kind that a reference leads to. -/
def lookUp (kind : ComponentKind) (entries : SortedMap (OrReference α)) (path : String) :
    Lookup α :=
  lookUpFrom kind entries [] path

/-- What is written in place, or the component that a reference leads to. -/
def OrReference.get (kind : ComponentKind) (entries : SortedMap (OrReference α)) :
    OrReference α → Lookup α
  | .inline value => .ok (.ok value)
  | .reference path => lookUp kind entries path

namespace Document

/-- The component schema that a reference leads to. -/
def findSchema (document : Document) (path : String) : Lookup Schema :=
  lookUp .schema document.schemas path

/-- The schema of a node. -/
def schema (document : Document) (node : Node) : Lookup Schema :=
  node.get .schema document.schemas

/-- The parameter that is written in place or referred to. -/
def parameter (document : Document) (parameter : OrReference Parameter) : Lookup Parameter :=
  parameter.get .parameter document.allComponents.parameters

/-- The request body that is written in place or referred to. -/
def requestBody (document : Document) (body : OrReference RequestBody) : Lookup RequestBody :=
  body.get .requestBody document.allComponents.requestBodies

/-- The response that is written in place or referred to. -/
def response (document : Document) (response : OrReference Response) : Lookup Response :=
  response.get .response document.allComponents.responses

end Document

/-! ## Laws -/

/-- The name that a path gives for a kind of component is that of the reference in it. -/
theorem nameFor_eq_of_ofPath {kind : ComponentKind} {path name : String}
    (h : Reference.nameFor kind path = .ok (.ok name)) :
    ∃ reference, Reference.ofPath path = .ok reference ∧ reference.name = name := by
  unfold Reference.nameFor at h
  split at h
  · cases h
  · rename_i reference hr
    split at h
    · cases h
    · split at h
      · simp only [Except.ok.injEq] at h
        exact ⟨reference, hr, h⟩
      · cases h

/-- What a path leads to, it leads to by way of an entry under its name. -/
theorem mem_keys_of_lookUp {kind : ComponentKind} {entries : SortedMap (OrReference α)}
    {path : String} {value : α} {reference : Reference}
    (hr : Reference.ofPath path = .ok reference)
    (h : lookUp kind entries path = .ok (.ok value)) : reference.name ∈ entries.keys := by
  unfold lookUp lookUpFrom at h
  split at h
  · cases h
  · cases h
  · rename_i name hname
    obtain ⟨reference', hr', rfl⟩ := nameFor_eq_of_ofPath hname
    rw [hr] at hr'
    cases hr'
    split at h
    · cases h
    · rename_i hf
      exact SortedMap.mem_keys_of_find? hf
    · rename_i hf
      exact SortedMap.mem_keys_of_find? hf

/-- The component name of a path is the name of the reference in it. -/
theorem ofPath_of_componentName {path name : String}
    (h : componentName path = .ok (some name)) :
    ∃ reference, Reference.ofPath path = .ok reference ∧ reference.name = name := by
  unfold componentName at h
  split at h
  · cases h
  · split at h
    · cases h
    · rename_i reference hr
      split at h
      · cases h
      · simp only [Except.ok.injEq, Option.some.injEq] at h
        exact ⟨reference, hr, h⟩

/-- A path leads to a schema only by way of a component's id. -/
theorem mem_schemaIds_of_findSchema {document : Document} {path name : String} {schema : Schema}
    (hname : componentName path = .ok (some name))
    (h : document.findSchema path = .ok (.ok schema)) : name ∈ document.schemaIds := by
  obtain ⟨reference, hr, rfl⟩ := ofPath_of_componentName hname
  exact mem_keys_of_lookUp hr h

end ApiCatalog
