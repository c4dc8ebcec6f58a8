import ApiCatalog.Graph
import ApiCatalog.PathIndex.Basic
import ApiCatalog.Resolution.Component

set_option autoImplicit false

/-!
# The state of an extraction

An extraction resolves schemas and, beside that, builds the path index and remembers what the
names that it gives to schemas of endpoints stand for.

## Main definitions

* `ApiCatalog.ExtractionState`: the state of resolution, the index and the bindings.
* `ApiCatalog.Extraction`: steps on that state.
* `Extraction.Reactions`: what else is done at refusals, which is nothing in an extraction.
* `Extraction.resolveBound`: resolution of a schema of an endpoint.
-/

namespace ApiCatalog

/-- What an extraction has found so far. -/
structure ExtractionState where
  resolver : ResolverState := {}
  index : PathIndex := ∅
  bindings : Bindings := ∅
deriving DecidableEq

/-- Steps of an extraction. -/
abbrev Extraction (α : Type) := EStateM Abort ExtractionState α

namespace Extraction

/-- A step of resolution as a step of an extraction. -/
def ofResolver {α : Type} (step : Resolver α) : Extraction α := fun state =>
  match step state.resolver with
  | .ok value resolver => .ok value { state with resolver }
  | .error abort resolver => .error abort { state with resolver }

/-- Adds a diagnostic. -/
def record (diagnostic : Diagnostic) : Extraction Unit :=
  ofResolver (Resolver.record diagnostic)

/-- Whether the extraction was cancelled. -/
def isCancelled : Extraction Bool :=
  ofResolver Resolver.isCancelled

/-- The value of a computation that may end the extraction. -/
def ofExcept {α : Type} (result : Except Abort α) : Extraction α :=
  ofResolver (Resolver.ofExcept result)

/-- What else is done where the index refuses a change, and where a template has an operation for a
method that cannot be declared. -/
structure Reactions where
  refused : PathIndexError → Extraction Unit
  unsupported : String → MethodError → Extraction Unit

/-- Nothing else is done. -/
def Reactions.none : Reactions where
  refused _ := pure ()
  unsupported _ _ := pure ()

/-- Applies a change to the index, or reacts to its refusal and tells the reason. -/
def changeIndexWith {α : Type} (reactions : Reactions)
    (change : PathIndex → Except PathIndexError (α × PathIndex)) :
    Extraction (Except PathIndexError α) := fun state =>
  match change state.index with
  | .error error => (do reactions.refused error; return .error error : Extraction _) state
  | .ok (value, index) => .ok (.ok value) { state with index }

/-- Applies a change to the index, or tells why the index refuses it. -/
def changeIndex {α : Type} (change : PathIndex → Except PathIndexError (α × PathIndex)) :
    Extraction (Except PathIndexError α) :=
  changeIndexWith .none change

/-- A change that the index refuses leaves the state as it is. -/
theorem changeIndex_apply {α : Type} (change : PathIndex → Except PathIndexError (α × PathIndex))
    (state : ExtractionState) :
    changeIndex change state = match change state.index with
      | .error error => .ok (.error error) state
      | .ok (value, index) => .ok (.ok value) { state with index } :=
  rfl

/-- Remembers what a name stands for, unless that is known already. -/
def bindName (name : ModelName) (references : List ModelName) : Extraction Unit :=
  modify fun state => { state with bindings := state.bindings.insertNew name references }

/-- Resolves a schema of an endpoint under the name given to it, and remembers what the name
stands for if that succeeds. -/
def resolveBound (context : Context) (node : Node) (name : ModelName) : Extraction Unit := do
  let resolution ← ofResolver (resolve context node name)
  if resolution.succeeded then bindName name resolution.references
  else pure ()

end Extraction

end ApiCatalog
