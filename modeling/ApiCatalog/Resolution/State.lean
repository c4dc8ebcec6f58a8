import ApiCatalog.Diagnostic
import ApiCatalog.Document.Reference
import ApiCatalog.Model.Repository

set_option autoImplicit false

/-!
# The state of schema resolution

What a resolution of schemas reads and leaves behind. A step either answers or ends the
extraction; what it has done until then stays in either case.

## Main definitions

* `ApiCatalog.Resolution`: the models that a schema denotes, and whether all went well.
* `ApiCatalog.ResolverState`: models, diagnostics, finished components, and the wish to stop.
* `ApiCatalog.Resolver`: steps on that state.
* `Resolver.register`, `Resolver.record`, `Resolver.memoise`: the ways in which the state grows.
-/

namespace ApiCatalog

/-- What a schema was resolved to. A failed resolution keeps the references found before the
failure. -/
structure Resolution where
  references : List ModelName
  succeeded : Bool
deriving DecidableEq, Repr

namespace Resolution

/-- The resolution to a single model. -/
def single (name : ModelName) (succeeded : Bool) : Resolution :=
  ⟨[name], succeeded⟩

/-- The failure without references. -/
def failed : Resolution :=
  ⟨[], false⟩

end Resolution

/-- What resolution has found so far. -/
structure ResolverState where
  /-- The models registered. -/
  repository : Repository := ∅
  /-- The problems met, in order. -/
  diagnostics : List Diagnostic := []
  /-- The resolutions of the components that are finished. -/
  memo : OrderedMap ModelName Resolution := ∅
  /-- Whether the extraction was asked to stop. -/
  cancelled : Bool := false
deriving DecidableEq

namespace ResolverState

/-- Registers a model under a free name. The registration that brings the number of models to
`cancelAt` cancels the extraction. -/
def register (cancelAt : Option Nat) (state : ResolverState) (model : Model) : ResolverState :=
  let (stored, repository) := state.repository.register model
  { state with
    repository
    cancelled := state.cancelled || (stored && decide (cancelAt = some repository.size)) }

/-- Adds a diagnostic. -/
def record (state : ResolverState) (diagnostic : Diagnostic) : ResolverState :=
  { state with diagnostics := state.diagnostics ++ [diagnostic] }

/-- Keeps the resolution of a component, unless the extraction was cancelled meanwhile. -/
def memoise (state : ResolverState) (name : ModelName) (resolution : Resolution) :
    ResolverState :=
  if state.cancelled then state else { state with memo := state.memo.insert name resolution }

end ResolverState

/-- Steps of schema resolution. A step that cannot be carried on ends the extraction. -/
abbrev Resolver (α : Type) := EStateM Abort ResolverState α

namespace Resolver

/-- Registers a model unless its name is taken. -/
def register (cancelAt : Option Nat) (model : Model) : Resolver Unit :=
  modify (ResolverState.register cancelAt · model)

/-- Adds a diagnostic. -/
def record (diagnostic : Diagnostic) : Resolver Unit :=
  modify (ResolverState.record · diagnostic)

/-- Keeps the resolution of a component. -/
def memoise (name : ModelName) (resolution : Resolution) : Resolver Unit :=
  modify (ResolverState.memoise · name resolution)

/-- Whether the extraction was cancelled. -/
def isCancelled : Resolver Bool := do
  return (← get).cancelled

/-- Whether a name is registered. -/
def isKnown (name : ModelName) : Resolver Bool := do
  return (← get).repository.contains name

/-- The resolution of a finished component. -/
def finished? (name : ModelName) : Resolver (Option Resolution) := do
  return (← get).memo.find? name

/-- The value of a computation that may end the extraction. -/
def ofExcept {α : Type} : Except Abort α → Resolver α
  | .ok value => pure value
  | .error abort => throw abort

/-- A step that fails at once if the extraction was cancelled. -/
def unlessCancelled (step : Resolver Resolution) : Resolver Resolution := do
  if ← isCancelled then return .failed
  else step

end Resolver

end ApiCatalog
