import ApiCatalog.Statistics
import Mathlib.Data.List.Nodup
import Mathlib.Logic.Relation

set_option autoImplicit false

/-!
# The model graph

What the computed graph says of the references between models: a name is found reachable only if
references lead to it, and a reference is reported as dangling exactly if it leads to a name that
is not registered.

## Main definitions

* `ModelGraph.Edge`: a reference from one registered model to another.
* `Repository.Sorted`: every model refers only to models registered before it.
* `ModelGraph.Mentions`: a model or a binding refers to a name.

## Main results

* `ModelGraph.transGen_of_mem_reachable`: what is found reachable is reached by references.
* `ModelGraph.not_transGen_self`: among models in the order of their references nothing leads back
  to itself.
* `ModelGraph.mem_danglingAmong`: what is reported as dangling.
* `ModelGraph.dangling_build_eq_nil_iff`: when nothing is.
* `Statistics.references_collect`: the numbers of cycles and of dangling references.
-/

namespace ApiCatalog

namespace ModelGraph

variable {graph : ModelGraph} {source target : ModelName}

/-! ## Reachable names -/

/-- A reference from one registered model to another. -/
def Edge (graph : ModelGraph) (source target : ModelName) : Prop :=
  (source, target) ∈ graph.edges

/-- The names that one reference leads to. -/
theorem mem_successors : target ∈ graph.successors source ↔ graph.Edge source target := by
  simp [successors, Edge]

/-- The members of an extended list. -/
theorem mem_extend {α : Type} [DecidableEq α] {seen found : List α} {member : α} :
    member ∈ extend seen found ↔ member ∈ seen ∨ member ∈ found := by
  induction found generalizing seen with
  | nil => simp [extend]
  | cons first rest ih =>
    rw [extend]
    split
    · next hseen =>
      rw [ih, List.mem_cons]
      constructor
      · tauto
      · rintro (h | rfl | h)
        · exact .inl h
        · exact .inl hseen
        · exact .inr h
    · rw [ih, List.mem_append, List.mem_singleton, List.mem_cons, or_assoc]

/-- What is explored is reached by references, if what was found before is.

**Proof sketch.** Induction on the rounds: the names of a round are successors of the names that
were found last. -/
theorem transGen_of_mem_explore {rounds : Nat} {seen latest : List ModelName}
    (hseen : ∀ name ∈ seen, Relation.TransGen graph.Edge source name)
    (hlatest : ∀ name ∈ latest, Relation.ReflTransGen graph.Edge source name)
    (h : target ∈ graph.explore rounds seen latest) :
    Relation.TransGen graph.Edge source target := by
  induction rounds generalizing seen latest with
  | zero => exact hseen target h
  | succ rounds ih =>
    have hfound : ∀ name ∈ extend seen (latest.flatMap graph.successors),
        Relation.TransGen graph.Edge source name := by
      intro name hname
      rcases mem_extend.1 hname with hname | hname
      · exact hseen name hname
      · obtain ⟨last, hlast, hname⟩ := List.mem_flatMap.1 hname
        exact .tail' (hlatest last hlast) (mem_successors.1 hname)
    rw [explore] at h
    split at h
    · exact hseen target h
    · exact ih hfound (fun name hname => (hfound name (List.mem_of_mem_drop hname)).to_reflTransGen)
        h

/-- **What is found reachable is reached by references.** -/
theorem transGen_of_mem_reachable (h : target ∈ graph.reachable source) :
    Relation.TransGen graph.Edge source target := by
  refine transGen_of_mem_explore (fun _ hname => absurd hname List.not_mem_nil)
    (fun name hname => ?_) h
  obtain rfl := List.mem_singleton.1 hname
  exact .refl

/-- What the table of a graph says is so. -/
theorem transGen_of_reaches (h : reaches graph.reachTable source target = true) :
    Relation.TransGen graph.Edge source target := by
  obtain ⟨row, hrow, h⟩ := List.any_eq_true.1 h
  obtain ⟨name, -, rfl⟩ := List.mem_map.1 hrow
  simp only [Bool.and_eq_true, decide_eq_true_eq, List.contains_iff_mem] at h
  obtain ⟨rfl, htarget⟩ := h
  exact transGen_of_mem_reachable htarget

end ModelGraph

/-! ## Models in order -/

/-- Every model refers only to models registered before it. -/
def Repository.Sorted (repository : Repository) : Prop :=
  ∀ before model after, repository.models = before ++ model :: after →
    ∀ name ∈ model.references, name ∈ before.map Model.name

namespace ModelGraph

variable {repository : Repository} {bindings : Bindings}

/-- The references between registered models. -/
theorem edge_build {source target : ModelName} :
    (build repository bindings).Edge source target ↔
      ∃ model ∈ repository.models, model.name = source ∧ target ∈ model.references ∧
        repository.contains target = true := by
  simp only [Edge, build, modelReferences, List.mem_filter, List.mem_flatMap, List.mem_map,
    Prod.mk.injEq]
  constructor
  · rintro ⟨⟨model, hmodel, name, hname, rfl, rfl⟩, hknown⟩
    exact ⟨model, hmodel, rfl, hname, hknown⟩
  · rintro ⟨model, hmodel, rfl, htarget, hknown⟩
    exact ⟨⟨model, hmodel, target, htarget, rfl, rfl⟩, hknown⟩

/-- References between sorted models lead back in the order of registration. -/
theorem idxOf_lt_of_edge (h : repository.Sorted) {source target : ModelName}
    (hedge : (build repository bindings).Edge source target) :
    repository.names.idxOf target < repository.names.idxOf source := by
  obtain ⟨model, hmodel, rfl, htarget, -⟩ := edge_build.1 hedge
  obtain ⟨before, after, hsplit⟩ := List.append_of_mem hmodel
  have hbefore := h before model after hsplit target htarget
  have hnames : repository.names = before.map Model.name ++ model.name :: after.map Model.name := by
    rw [Repository.names, hsplit, List.map_append, List.map_cons]
  have hnew : model.name ∉ before.map Model.name := by
    have hnodup : repository.names.Nodup := repository.nodup_names
    rw [hnames, List.nodup_middle, List.nodup_cons] at hnodup
    exact fun hmem => hnodup.1 (List.mem_append.2 (.inl hmem))
  rw [hnames, List.idxOf_append_of_mem hbefore, List.idxOf_append_of_notMem hnew,
    List.idxOf_cons_self]
  exact List.idxOf_lt_length_of_mem hbefore

/-- Nothing leads back to itself among sorted models. -/
theorem not_transGen_self (h : repository.Sorted) (name : ModelName) :
    ¬ Relation.TransGen (build repository bindings).Edge name name := by
  have hlt : ∀ {a b : ModelName}, Relation.TransGen (build repository bindings).Edge a b →
      repository.names.idxOf b < repository.names.idxOf a := by
    intro a b hab
    induction hab with
    | single hedge => exact idxOf_lt_of_edge h hedge
    | tail _ hedge ih => exact Nat.lt_trans (idxOf_lt_of_edge h hedge) ih
  exact fun hcycle => absurd (hlt hcycle) (Nat.lt_irrefl _)

/-! ## Dangling references -/

/-- The members after an insertion. -/
theorem mem_insertSorted {reference other : DanglingReference} {sorted : List DanglingReference} :
    other ∈ DanglingReference.insertSorted reference sorted ↔
      other = reference ∨ other ∈ sorted := by
  induction sorted with
  | nil => simp [DanglingReference.insertSorted]
  | cons first rest ih =>
    rw [DanglingReference.insertSorted]
    split
    · simp
    · split
      · next he =>
        subst he
        simp
      · simp only [List.mem_cons, ih]
        tauto

/-- **A reference is reported as dangling exactly if it leads to no model.** -/
theorem mem_danglingAmong {references : List (ModelName × ModelName)}
    {reference : DanglingReference} :
    reference ∈ danglingAmong repository references ↔
      (reference.source, reference.target) ∈ references ∧
        repository.contains reference.target = false := by
  have hfold : ∀ (edges : List (ModelName × ModelName)) (sorted : List DanglingReference),
      reference ∈ edges.foldl
        (fun sorted edge => DanglingReference.insertSorted ⟨edge.1, edge.2⟩ sorted) sorted ↔
      reference ∈ sorted ∨ (reference.source, reference.target) ∈ edges := by
    intro edges
    induction edges with
    | nil => simp
    | cons edge rest ih =>
      intro sorted
      obtain ⟨source, target⟩ := reference
      obtain ⟨source', target'⟩ := edge
      rw [List.foldl_cons, ih, mem_insertSorted, List.mem_cons]
      simp only [DanglingReference.mk.injEq, Prod.mk.injEq]
      tauto
  rw [danglingAmong, hfold, List.mem_filter]
  simp

/-- The dangling references of a graph: those of models and those of bindings. -/
theorem mem_dangling_build {source target : ModelName} :
    ⟨source, target⟩ ∈ (build repository bindings).dangling ↔
      ((∃ model ∈ repository.models, model.name = source ∧ target ∈ model.references) ∨
        ∃ references, (source, references) ∈ bindings.entries ∧ target ∈ references) ∧
      repository.contains target = false := by
  simp only [build, mem_danglingAmong, List.mem_append, modelReferences, bindingReferences,
    List.mem_flatMap, List.mem_map, Prod.mk.injEq]
  refine and_congr_left fun _ => or_congr ?_ ?_
  · constructor
    · rintro ⟨model, hmodel, name, hname, rfl, rfl⟩
      exact ⟨model, hmodel, rfl, hname⟩
    · rintro ⟨model, hmodel, rfl, htarget⟩
      exact ⟨model, hmodel, target, htarget, rfl, rfl⟩
  · constructor
    · rintro ⟨⟨name, references⟩, hentry, other, hother, rfl, rfl⟩
      exact ⟨references, hentry, hother⟩
    · rintro ⟨references, hentry, htarget⟩
      exact ⟨(source, references), hentry, target, htarget, rfl, rfl⟩

/-- A model or a binding refers to a name. -/
def Mentions (repository : Repository) (bindings : Bindings) (name : ModelName) : Prop :=
  (∃ model ∈ repository.models, name ∈ model.references) ∨
    ∃ references ∈ bindings.values, name ∈ references

/-- What a dangling reference leads to is mentioned, but not registered. -/
theorem mentions_of_mem_dangling {reference : DanglingReference}
    (h : reference ∈ (build repository bindings).dangling) :
    Mentions repository bindings reference.target ∧
      repository.contains reference.target = false := by
  obtain ⟨hsource, hmissing⟩ := mem_dangling_build.1 h
  refine ⟨?_, hmissing⟩
  rcases hsource with ⟨model, hmodel, -, htarget⟩ | ⟨references, hentry, htarget⟩
  · exact .inl ⟨model, hmodel, htarget⟩
  · exact .inr ⟨references, List.mem_map.2 ⟨_, hentry, rfl⟩, htarget⟩

/-- **Nothing dangles exactly if all that is mentioned is registered.** -/
theorem dangling_build_eq_nil_iff :
    (build repository bindings).dangling = [] ↔
      ∀ name, Mentions repository bindings name → repository.contains name = true := by
  constructor
  · intro hnone name hmentions
    by_contra hmissing
    rw [Bool.not_eq_true] at hmissing
    have hdangles : ∀ source, ⟨source, name⟩ ∉ (build repository bindings).dangling := by
      rw [hnone]
      exact fun _ => List.not_mem_nil
    rcases hmentions with ⟨model, hmodel, hname⟩ | ⟨references, hreferences, hname⟩
    · exact hdangles model.name
        (mem_dangling_build.2 ⟨.inl ⟨model, hmodel, rfl, hname⟩, hmissing⟩)
    · obtain ⟨⟨source, references⟩, hentry, rfl⟩ := List.mem_map.1 hreferences
      exact hdangles source (mem_dangling_build.2 ⟨.inr ⟨references, hentry, hname⟩, hmissing⟩)
  · intro hall
    rw [List.eq_nil_iff_forall_not_mem]
    intro reference hmem
    obtain ⟨hmentions, hmissing⟩ := mentions_of_mem_dangling hmem
    rw [hall _ hmentions] at hmissing
    cases hmissing

end ModelGraph

/-! ## Counts -/

namespace Statistics

/-- A count that single steps leave alone is left alone by all of them. -/
theorem foldl_eq {α β : Type} {count : Statistics → β} {step : Statistics → α → Statistics}
    (h : ∀ statistics a, count (step statistics a) = count statistics) (members : List α)
    (statistics : Statistics) :
    count (members.foldl step statistics) = count statistics := by
  induction members generalizing statistics with
  | nil => rfl
  | cons a rest ih => rw [List.foldl_cons, ih, h]

/-- Cycles are counted one by one. -/
theorem cyclesDetected_foldl_recordCycle (cycles : List (List ModelName))
    (statistics : Statistics) :
    (cycles.foldl recordCycle statistics).cyclesDetected =
      statistics.cyclesDetected + cycles.length := by
  induction cycles generalizing statistics with
  | nil => rfl
  | cons cycle rest ih =>
    rw [List.foldl_cons, ih, List.length_cons]
    show statistics.cyclesDetected + 1 + rest.length = _
    omega

/-- What a schema, an endpoint or a diagnostic is counted by has nothing to do with references. -/
structure OfReferences {β : Type} (count : Statistics → β) : Prop where
  model : ∀ statistics model, count (recordModel statistics model) = count statistics
  endpoint : ∀ statistics endpoint, count (recordEndpoint statistics endpoint) = count statistics
  size : ∀ (statistics : Statistics) size,
    count { statistics with pathParts := size } = count statistics
  diagnostic : ∀ statistics diagnostic,
    count (recordDiagnostic statistics diagnostic) = count statistics

/-- The numbers of cycles and of dangling references are counts of references. -/
theorem ofReferences : OfReferences fun statistics =>
    (statistics.cyclesDetected, statistics.danglingReferences) where
  model := fun statistics model => by
    rw [recordModel]
    cases model.kind <;> rfl
  endpoint := fun _ _ => rfl
  size := fun _ _ => rfl
  diagnostic := fun statistics diagnostic => by
    rw [recordDiagnostic]
    split <;> rfl

variable (repository : Repository) (index : PathIndex) (bindings : Bindings)
  (diagnostics : List Diagnostic)

/-- A count of references is made from the graph alone. -/
theorem OfReferences.collect {β : Type} {count : Statistics → β} (h : OfReferences count) :
    count (collect repository index bindings diagnostics) =
      count (((ModelGraph.build repository bindings).cycles.foldl recordCycle {}).recordDangling
        (ModelGraph.build repository bindings).dangling) := by
  rw [Statistics.collect, foldl_eq h.diagnostic, recordPaths, foldl_eq h.endpoint, h.size,
    foldl_eq h.model]

/-- **The numbers of cycles and of dangling references** are those of the graph. -/
theorem references_collect :
    (collect repository index bindings diagnostics).cyclesDetected =
        (ModelGraph.build repository bindings).cycles.length ∧
      (collect repository index bindings diagnostics).danglingReferences =
        (ModelGraph.build repository bindings).dangling.length := by
  have hcounts := ofReferences.collect repository index bindings diagnostics
  obtain ⟨hcycles, hdangling⟩ := Prod.mk.inj hcounts
  have hcycle : ∀ statistics cycle,
      (recordCycle statistics cycle).danglingReferences = statistics.danglingReferences :=
    fun _ _ => rfl
  have hkept := foldl_eq hcycle (ModelGraph.build repository bindings).cycles
  rw [hcycles, hdangling]
  simp [recordDangling, cyclesDetected_foldl_recordCycle, hkept]

end Statistics

end ApiCatalog
