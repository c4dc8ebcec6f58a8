import ApiCatalog.Resolution.Walk

set_option autoImplicit false

/-!
# Resolving references and components

A reference is resolved under the id of the component it names, once for all. While a component
is being resolved it is active, and a reference back to it is answered with its id.

## Main definitions

* `ApiCatalog.followReference`: resolution of a reference while certain components are active.
* `ApiCatalog.resolve`: resolution of a node from outside.
* `ApiCatalog.resolveComponent`: resolution of a component under its own id.
-/

namespace ApiCatalog

/-- Reports a reference that leads nowhere. -/
def refuseReference (target : String) (hint : ModelName) (error : String) :
    Resolver Resolution := do
  Resolver.record (.unresolvedReference hint target error)
  return .failed

/-- Resolves a reference while the components `active` are being resolved. Only components that
are not active are entered, so that there is an end to it. -/
def followReference (context : Context) (active : List ModelName) : FollowReference :=
  fun target hint =>
    match _hname : componentName target with
    | .error abort => throw abort
    | .ok none => refuseReference target hint "not an internal component reference"
    | .ok (some id) => do
      match ← Resolver.finished? (Naming.component id) with
      | some resolution => return resolution
      | none =>
        if _hnew : id ∈ active then return .single (Naming.component id) true
        else match _hfound : context.document.findSchema target with
          | .error abort => throw abort
          | .ok (.error error) => refuseReference target hint error.message
          | .ok (.ok schema) =>
            let resolution ← resolveSchema context (followReference context (id :: active)) schema
              (Naming.component id) false
            Resolver.memoise (Naming.component id) resolution
            return resolution
termination_by remaining context.document.schemaIds active
decreasing_by exact remaining_lt (mem_schemaIds_of_findSchema _hname _hfound) _hnew

/-- Resolves a node under a hint. A reference goes by the id of its component, whatever the
hint. -/
def resolve (context : Context) (node : Node) (hint : ModelName) : Resolver Resolution :=
  resolveNode context (followReference context []) node hint false

/-- Resolves a component under its own id, unless that name is registered or the component was
resolved through a reference. -/
def resolveComponent (context : Context) (id : String) (node : Node) :
    Resolver (Option Resolution) := do
  let state ← get
  if state.repository.contains (Naming.component id) || state.memo.contains (Naming.component id)
  then return none
  else
    let resolution ← resolveNode context (followReference context [id]) node
      (Naming.component id) false
    Resolver.memoise (Naming.component id) resolution
    return some resolution

end ApiCatalog
