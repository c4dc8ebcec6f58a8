import ApiCatalog.Collections.Sorting
import ApiCatalog.Model.Repository

set_option autoImplicit false

/-!
# The model graph

The references between registered models as a graph, its cycles, and the references that lead to
no model.

## Main definitions

* `ApiCatalog.ModelGraph`: names, edges between them, and dangling references.
* `ModelGraph.build`: the graph of a repository and the bindings of an extraction.
* `ModelGraph.reachable`: the names that one or more references lead to.
* `ModelGraph.components`: the strongly connected components.
* `ModelGraph.cyclesAmong`: what is reported of components: those that reach themselves, in order.
* `ModelGraph.cycles`: the groups of names that reach themselves through each other.
-/

namespace ApiCatalog

/-- What the names given to schemas of endpoints stand for. -/
abbrev Bindings := OrderedMap ModelName (List ModelName)

/-- A reference that leads to no model. -/
structure DanglingReference where
  source : ModelName
  target : ModelName
deriving DecidableEq, Repr

namespace DanglingReference

/-- The order of references: by source, then by target. -/
def before (a b : DanglingReference) : Bool :=
  a.source < b.source || (a.source = b.source && a.target < b.target)

/-- A sorted list with one more member, unless it is there already. -/
def insertSorted (reference : DanglingReference) :
    List DanglingReference → List DanglingReference
  | [] => [reference]
  | other :: rest =>
    if reference.before other then reference :: other :: rest
    else if reference = other then other :: rest
    else other :: insertSorted reference rest

end DanglingReference

/-- The references between models. -/
structure ModelGraph where
  /-- The names of the registered models. -/
  nodes : List ModelName
  /-- The references from a registered model to a registered model. -/
  edges : List (ModelName × ModelName)
  /-- The references to names that are not registered, in order, each once. -/
  dangling : List DanglingReference

namespace ModelGraph

/-- The references of registered models. -/
def modelReferences (repository : Repository) : List (ModelName × ModelName) :=
  repository.models.flatMap fun model => model.references.map fun target => (model.name, target)

/-- The references of bindings. -/
def bindingReferences (bindings : Bindings) : List (ModelName × ModelName) :=
  bindings.entries.flatMap fun binding => binding.2.map fun target => (binding.1, target)

/-- The references to names that are not registered, in order, each once. -/
def danglingAmong (repository : Repository) (references : List (ModelName × ModelName)) :
    List DanglingReference :=
  (references.filter fun edge => !repository.contains edge.2).foldl
    (fun sorted edge => DanglingReference.insertSorted ⟨edge.1, edge.2⟩ sorted) []

/-- The graph of the models of a repository. -/
def build (repository : Repository) (bindings : Bindings) : ModelGraph where
  nodes := repository.names
  edges := (modelReferences repository).filter fun edge => repository.contains edge.2
  dangling := danglingAmong repository (modelReferences repository ++ bindingReferences bindings)

/-- The names that one reference leads to. -/
def successors (graph : ModelGraph) (name : ModelName) : List ModelName :=
  (graph.edges.filter fun edge => edge.1 = name).map Prod.snd

/-- A list with the members of another that are new to it, each once. -/
def extend {α : Type} [DecidableEq α] (seen : List α) : List α → List α
  | [] => seen
  | member :: rest =>
    if member ∈ seen then extend seen rest else extend (seen ++ [member]) rest

/-- Follows references from the names found last, until there are no new ones or the rounds are
used up. -/
def explore (graph : ModelGraph) : Nat → List ModelName → List ModelName → List ModelName
  | 0, seen, _ => seen
  | rounds + 1, seen, latest =>
    let found := extend seen (latest.flatMap graph.successors)
    if found.length = seen.length then seen
    else explore graph rounds found (found.drop seen.length)

/-- The names that one or more references lead to. Every round but the last finds a name, so that
there are at most as many rounds as names. -/
def reachable (graph : ModelGraph) (name : ModelName) : List ModelName :=
  graph.explore graph.nodes.length [] [name]

/-- What each name reaches. -/
def reachTable (graph : ModelGraph) : List (ModelName × List ModelName) :=
  graph.nodes.map fun name => (name, graph.reachable name)

/-- Whether a table says that one name reaches another. -/
def reaches (table : List (ModelName × List ModelName)) (source target : ModelName) : Bool :=
  table.any fun row => row.1 = source && row.2.contains target

/-- Whether a table says that two names reach each other, or they are one. -/
def together (table : List (ModelName × List ModelName)) (name other : ModelName) : Bool :=
  name = other || (reaches table name other && reaches table other name)

/-- The strongly connected components, of which no order is asked: for each node the nodes that
are together with it, where a component that was found before is not listed again. -/
def components (graph : ModelGraph) : List (List ModelName) :=
  let table := graph.reachTable
  extend [] (graph.nodes.map fun name => graph.nodes.filter (together table name))

/-- Whether a reference leads from one name to another. -/
def containsEdge (graph : ModelGraph) (source target : ModelName) : Bool :=
  graph.edges.contains (source, target)

/-- Whether the names of a component reach themselves: they are several, or the first one refers
to itself. No component is empty. -/
def turnsBack (graph : ModelGraph) (component : List ModelName) : Bool :=
  1 < component.length || component.head?.any fun first => graph.containsEdge first first

/-- The components whose names reach themselves. Each is put in order, and so are all of them. -/
def cyclesAmong (graph : ModelGraph) (components : List (List ModelName)) :
    List (List ModelName) :=
  inOrder ((components.filter graph.turnsBack).map inOrder)

/-- The groups of names that reach themselves through each other. -/
def cycles (graph : ModelGraph) : List (List ModelName) :=
  graph.cyclesAmong graph.components

end ModelGraph

end ApiCatalog
