import ApiCatalog.Proofs.Graph.Components
import Mathlib.Data.List.Sort

set_option autoImplicit false

/-!
# The cycles of the model graph

Of the strongly connected components those are reported that have several members, or whose only
member refers to itself. These are the components of the names that reach themselves. They are put
in order, as are their members, so that what is reported does not depend on the order in which
components are found.

## Main definitions

* `Repository.RefersTo`: a reference from one registered model to another.
* `ModelGraph.Dangles`: a reference of a model or of a binding that leads to no model.

## Main results

* `ModelGraph.IsComponents.turnsBack_iff`: which components are reported.
* `ModelGraph.IsComponents.mem_cyclesAmong_iff`: what is reported of them.
* `ModelGraph.IsComponents.cyclesAmong_eq`: the order of the components does not matter.
* `ModelGraph.cycles_build_eq_nil`: models in the order of their references form no cycle.
* `ModelGraph.pairwise_dangling_build`: dangling references are listed in order, each once.
* `ModelGraph.components_of_build`: the groups of a repository and its dangling references.
-/

namespace ApiCatalog

namespace ModelGraph

variable {graph : ModelGraph}

/-! ## Components that reach themselves -/

/-- Two names that are connected reach themselves, unless they are one. -/
theorem Connected.transGen_self {name other : ModelName} (h : graph.Connected name other)
    (hself : name = other → Relation.TransGen graph.Edge name name) :
    Relation.TransGen graph.Edge other other := by
  by_cases hsame : name = other
  · exact hsame ▸ hself hsame
  · obtain ⟨hto, hback⟩ := h.transGen hsame
    exact hback.trans hto

/-- Whether a graph has an edge. -/
theorem containsEdge_iff {source target : ModelName} :
    graph.containsEdge source target = true ↔ graph.Edge source target := by
  simp [containsEdge, Edge]

/-- What is reported are the components that reach themselves, each in order. -/
theorem mem_cyclesAmong {components : List (List ModelName)} {cycle : List ModelName} :
    cycle ∈ graph.cyclesAmong components ↔
      ∃ component ∈ components, graph.turnsBack component = true ∧ inOrder component = cycle := by
  simp [cyclesAmong, and_assoc]

namespace IsComponents

variable {components components' : List (List ModelName)}

/-- No name stands in a component twice. -/
theorem nodup_component (h : graph.IsComponents components) {component : List ModelName}
    (hcomponent : component ∈ components) : component.Nodup :=
  (List.nodup_flatten.1 h.nodup).1 component hcomponent

/-- **A component is reported exactly if its members reach themselves.**

**Proof sketch.** Of several members, each reaches another one and is reached by it. A name that
reaches itself refers to a name from which it is reached, hence to a member of its component, which
is itself if there is no other one. -/
theorem turnsBack_iff (h : graph.IsComponents components) {component : List ModelName}
    (hcomponent : component ∈ components) {name : ModelName} (hname : name ∈ component) :
    graph.turnsBack component = true ↔ Relation.TransGen graph.Edge name name := by
  have hconnected := h.connected component hcomponent
  obtain ⟨first, rest, rfl⟩ := List.exists_cons_of_ne_nil (h.nonempty component hcomponent)
  have hfirst := (hconnected first List.mem_cons_self name).1 hname
  rw [turnsBack, Bool.or_eq_true, decide_eq_true_eq, List.head?_cons, Option.any_some,
    containsEdge_iff]
  constructor
  · rintro (hmany | hedge)
    · obtain ⟨second, rest, rfl⟩ : ∃ second rest', rest = second :: rest' :=
        List.exists_cons_of_length_pos (by simpa using hmany)
      have hne : first ≠ second := fun hsame =>
        (List.nodup_cons.1 (h.nodup_component hcomponent)).1 (hsame ▸ List.mem_cons_self)
      have hsecond := (hconnected second (List.mem_cons_of_mem _ List.mem_cons_self) first).1
        List.mem_cons_self
      exact hfirst.transGen_self fun _ =>
        hsecond.transGen_self fun hsame => absurd hsame.symm hne
    · exact hfirst.transGen_self fun _ => .single hedge
  · intro hself
    obtain ⟨next, hedge, hback⟩ := Relation.TransGen.head'_iff.1 hself
    have hnext := (hconnected name hname next).2 ⟨.single hedge, hback⟩
    cases rest with
    | nil =>
      rw [List.mem_singleton] at hname hnext
      rw [hname, hnext] at hedge
      exact .inr hedge
    | cons second rest => exact .inl (by simp)

/-! ## What is reported -/

/-- **What is reported of the components**: for each name that reaches itself, the names connected
with it, in order. -/
theorem mem_cyclesAmong_iff (hclosed : graph.Closed) (h : graph.IsComponents components)
    {cycle : List ModelName} :
    cycle ∈ graph.cyclesAmong components ↔
      cycle.Pairwise (· < ·) ∧ ∃ name, Relation.TransGen graph.Edge name name ∧
        ∀ other, other ∈ cycle ↔ graph.Connected name other := by
  rw [mem_cyclesAmong]
  constructor
  · rintro ⟨component, hcomponent, hturns, rfl⟩
    obtain ⟨name, hname⟩ := List.exists_mem_of_ne_nil _ (h.nonempty component hcomponent)
    refine ⟨pairwise_inOrder (h.nodup_component hcomponent), name,
      (h.turnsBack_iff hcomponent hname).1 hturns, fun other => ?_⟩
    rw [mem_inOrder, h.connected component hcomponent name hname]
  · rintro ⟨hordered, name, hself, hcycle⟩
    obtain ⟨component, hcomponent, hname⟩ := (h.nodes name).2 (hclosed.transGen hself).1
    refine ⟨component, hcomponent, (h.turnsBack_iff hcomponent hname).2 hself, ?_⟩
    refine (pairwise_inOrder (h.nodup_component hcomponent)).eq_of_mem_iff hordered fun other => ?_
    rw [mem_inOrder, h.connected component hcomponent name hname, hcycle]

/-- No group that is reported is empty. -/
theorem ne_nil_of_mem_cyclesAmong (hclosed : graph.Closed) (h : graph.IsComponents components)
    {cycle : List ModelName} (hcycle : cycle ∈ graph.cyclesAmong components) : cycle ≠ [] := by
  obtain ⟨-, name, -, hmembers⟩ := (h.mem_cyclesAmong_iff hclosed).1 hcycle
  exact List.ne_nil_of_mem ((hmembers name).2 (.refl name))

/-- The groups that are reported are in order, each once. -/
theorem pairwise_cyclesAmong (h : graph.IsComponents components) :
    (graph.cyclesAmong components).Pairwise (· < ·) := by
  refine pairwise_inOrder (List.pairwise_map.2 ?_)
  -- components have no member in common, so what they are in order differs
  have hapart := (List.nodup_flatten.1 h.nodup).2.filter graph.turnsBack
  refine hapart.imp_of_mem fun {component other} hcomponent _ hdisjoint hsame => ?_
  obtain ⟨name, hname⟩ := List.exists_mem_of_ne_nil _
    (h.nonempty component (List.mem_of_mem_filter hcomponent))
  exact hdisjoint hname (mem_inOrder.1 (hsame ▸ mem_inOrder.2 hname))

/-- **The order of the components, and that of their members, does not matter.** -/
theorem cyclesAmong_eq (hclosed : graph.Closed) (h : graph.IsComponents components)
    (h' : graph.IsComponents components') :
    graph.cyclesAmong components = graph.cyclesAmong components' := by
  refine h.pairwise_cyclesAmong.eq_of_mem_iff h'.pairwise_cyclesAmong fun cycle => ?_
  rw [h.mem_cyclesAmong_iff hclosed, h'.mem_cyclesAmong_iff hclosed]

/-- A name is reported exactly if it reaches itself. -/
theorem exists_mem_cyclesAmong_iff (hclosed : graph.Closed) (h : graph.IsComponents components)
    {name : ModelName} :
    (∃ cycle ∈ graph.cyclesAmong components, name ∈ cycle) ↔
      Relation.TransGen graph.Edge name name := by
  constructor
  · rintro ⟨cycle, hcycle, hname⟩
    obtain ⟨-, first, hself, hmembers⟩ := (h.mem_cyclesAmong_iff hclosed).1 hcycle
    exact ((hmembers name).1 hname).transGen_self fun _ => hself
  · intro hself
    obtain ⟨component, hcomponent, hname⟩ := (h.nodes name).2 (hclosed.transGen hself).1
    exact ⟨_, mem_cyclesAmong.2
      ⟨component, hcomponent, (h.turnsBack_iff hcomponent hname).2 hself, rfl⟩,
      mem_inOrder.2 hname⟩

/-- Two names are in one group exactly if each reaches the other. -/
theorem mem_cyclesAmong_pair_iff (hclosed : graph.Closed) (h : graph.IsComponents components)
    (name other : ModelName) :
    (∃ cycle ∈ graph.cyclesAmong components, name ∈ cycle ∧ other ∈ cycle) ↔
      Relation.TransGen graph.Edge name other ∧ Relation.TransGen graph.Edge other name := by
  constructor
  · rintro ⟨cycle, hcycle, hname, hother⟩
    obtain ⟨-, first, hself, hmembers⟩ := (h.mem_cyclesAmong_iff hclosed).1 hcycle
    have hfirst := (hmembers name).1 hname
    have hconnected := hfirst.symm.trans ((hmembers other).1 hother)
    by_cases hsame : name = other
    · have hname := hfirst.transGen_self fun _ => hself
      exact hsame ▸ ⟨hname, hname⟩
    · exact hconnected.transGen hsame
  · rintro ⟨hto, hback⟩
    obtain ⟨cycle, hcycle, hname⟩ := (h.exists_mem_cyclesAmong_iff hclosed).2 (hto.trans hback)
    obtain ⟨-, first, -, hmembers⟩ := (h.mem_cyclesAmong_iff hclosed).1 hcycle
    exact ⟨cycle, hcycle, hname, (hmembers other).2
      (((hmembers name).1 hname).trans ⟨hto.to_reflTransGen, hback.to_reflTransGen⟩)⟩

/-- No name is reported twice. -/
theorem nodup_flatten_cyclesAmong (hclosed : graph.Closed) (h : graph.IsComponents components) :
    (graph.cyclesAmong components).flatten.Nodup := by
  refine List.nodup_flatten.2 ⟨fun cycle hcycle => ?_, ?_⟩
  · exact ((h.mem_cyclesAmong_iff hclosed).1 hcycle).1.nodup
  · refine h.pairwise_cyclesAmong.imp_of_mem fun {cycle cycle'} hcycle hcycle' hlt => ?_
    obtain ⟨hordered, first, -, hmembers⟩ := (h.mem_cyclesAmong_iff hclosed).1 hcycle
    obtain ⟨hordered', first', -, hmembers'⟩ := (h.mem_cyclesAmong_iff hclosed).1 hcycle'
    intro name hname hname'
    have hconnected := ((hmembers name).1 hname).trans ((hmembers' name).1 hname').symm
    have hsame : cycle = cycle' := hordered.eq_of_mem_iff hordered' fun other => by
      rw [hmembers, hmembers']
      exact ⟨hconnected.symm.trans, hconnected.trans⟩
    exact List.lt_irrefl cycle (hsame ▸ hlt)

end IsComponents

end ModelGraph

/-! ## Dangling references -/

namespace DanglingReference

variable {a b c : DanglingReference}

/-- References are ordered by source, then by target. -/
theorem before_iff :
    a.before b = true ↔ a.source < b.source ∨ a.source = b.source ∧ a.target < b.target := by
  simp [before]

/-- No reference comes before itself. -/
theorem not_before_self (a : DanglingReference) : a.before a = false := by
  simp [before]

/-- The order of references is transitive. -/
theorem before_trans (hab : a.before b = true) (hbc : b.before c = true) :
    a.before c = true := by
  rw [before_iff] at *
  rcases hab with hab | ⟨hab, htarget⟩
  · rcases hbc with hbc | ⟨hbc, -⟩
    · exact .inl (String.lt_trans hab hbc)
    · exact .inl (hbc ▸ hab)
  · rw [hab]
    exact hbc.imp id (And.imp_right (String.lt_trans htarget))

/-- Different references are in one order or the other. -/
theorem before_of_not_before (h : ¬ a.before b = true) (hne : a ≠ b) : b.before a = true := by
  rw [before_iff] at h ⊢
  by_cases hsource : a.source = b.source
  · have htarget : a.target ≠ b.target := fun htarget =>
      hne (by cases a; cases b; simp_all)
    exact .inr ⟨hsource.symm,
      lt_of_not_lt_of_ne (fun hlt => h (.inr ⟨hsource, hlt⟩)) htarget⟩
  · exact .inl (lt_of_not_lt_of_ne (fun hlt => h (.inl hlt)) hsource)

/-- An insertion keeps the references in order. -/
theorem pairwise_insertSorted {sorted : List DanglingReference} (reference : DanglingReference)
    (h : sorted.Pairwise fun a b => a.before b = true) :
    (insertSorted reference sorted).Pairwise fun a b => a.before b = true := by
  induction sorted with
  | nil => exact List.pairwise_singleton _ _
  | cons other rest ih =>
    obtain ⟨hhead, htail⟩ := List.pairwise_cons.1 h
    rw [insertSorted]
    split
    · next hbefore =>
      refine List.pairwise_cons.2 ⟨fun third hthird => ?_, h⟩
      rcases List.mem_cons.1 hthird with rfl | hthird
      · exact hbefore
      · exact before_trans hbefore (hhead third hthird)
    · next hnot =>
      split
      · exact h
      · next hne =>
        refine List.pairwise_cons.2 ⟨fun third hthird => ?_, ih htail⟩
        rcases ModelGraph.mem_insertSorted.1 hthird with rfl | hthird
        · exact before_of_not_before hnot hne
        · exact hhead third hthird

end DanglingReference

/-- A registered model refers to a registered model. -/
def Repository.RefersTo (repository : Repository) (source target : ModelName) : Prop :=
  ∃ model ∈ repository.models, model.name = source ∧ target ∈ model.references ∧
    repository.contains target = true

namespace ModelGraph

/-- A reference of a registered model or of a binding leads to a name that is not registered. -/
def Dangles (repository : Repository) (bindings : Bindings) (reference : DanglingReference) :
    Prop :=
  ((∃ model ∈ repository.models, model.name = reference.source ∧
        reference.target ∈ model.references) ∨
      ∃ references, (reference.source, references) ∈ bindings.entries ∧
        reference.target ∈ references) ∧
    repository.contains reference.target = false

variable (repository : Repository) (bindings : Bindings)

/-- Dangling references are listed in order, each once. -/
theorem pairwise_dangling_build :
    (build repository bindings).dangling.Pairwise fun a b => a.before b = true := by
  have hfold : ∀ (edges : List (ModelName × ModelName)) (sorted : List DanglingReference),
      (sorted.Pairwise fun a b => a.before b = true) →
      (edges.foldl (fun sorted edge => DanglingReference.insertSorted ⟨edge.1, edge.2⟩ sorted)
        sorted).Pairwise fun a b => a.before b = true := by
    intro edges
    induction edges with
    | nil => exact fun _ h => h
    | cons edge rest ih => exact fun _ h => ih _ (DanglingReference.pairwise_insertSorted _ h)
  exact hfold _ _ List.Pairwise.nil

/-- No dangling reference is listed twice. -/
theorem nodup_dangling_build : (build repository bindings).dangling.Nodup := by
  -- they are listed in a strict order
  refine (pairwise_dangling_build repository bindings).imp fun {a b} hbefore heq => ?_
  rw [heq, DanglingReference.not_before_self] at hbefore
  cases hbefore

/-- The graph of a repository has the references between registered models. -/
theorem edge_build_eq : (build repository bindings).Edge = repository.RefersTo := by
  funext source target
  exact propext edge_build

/-- The references of a repository lead from models to models. -/
theorem closed_build : (build repository bindings).Closed := by
  intro source target hedge
  obtain ⟨model, hmodel, rfl, -, hknown⟩ := edge_build.1 hedge
  exact ⟨List.mem_map_of_mem hmodel, Repository.contains_iff.1 hknown⟩

/-- What is computed for a repository are its components. -/
theorem isComponents_build :
    (build repository bindings).IsComponents (build repository bindings).components :=
  isComponents_components (closed_build repository bindings) repository.nodup_names

variable {repository bindings} in
/-- **Models in the order of their references form no cycle.** -/
theorem cycles_build_eq_nil (h : repository.Sorted) : (build repository bindings).cycles = [] := by
  refine List.eq_nil_iff_forall_not_mem.2 fun cycle hcycle => ?_
  obtain ⟨-, name, hself, -⟩ := ((isComponents_build repository bindings).mem_cyclesAmong_iff
    (closed_build repository bindings)).1 hcycle
  exact not_transGen_self h name hself

/-- **The cycles of a repository are its strongly connected components**, less the models that do
not reach themselves, whichever order the components are found in. A name is listed exactly if it
reaches itself through references between registered models, and two names are listed in one group
exactly if each reaches the other; no name is listed twice, each group is in order, and so are the
groups. The graph has exactly the references between registered models; every other reference of a
model or a binding is listed as dangling, in order and once, and nothing else is.

**Proof sketch.** Of the components, exactly those whose members reach themselves pass the filter
(`IsComponents.turnsBack_iff`). What is reported of them is in order and has members that depend on
no order (`IsComponents.mem_cyclesAmong_iff`). -/
theorem components_of_build :
    (build repository bindings).IsComponents (build repository bindings).components ∧
      (∀ components, (build repository bindings).IsComponents components →
        (build repository bindings).cyclesAmong components = (build repository bindings).cycles) ∧
      (∀ name, (∃ cycle ∈ (build repository bindings).cycles, name ∈ cycle) ↔
        Relation.TransGen repository.RefersTo name name) ∧
      (∀ name other,
        (∃ cycle ∈ (build repository bindings).cycles, name ∈ cycle ∧ other ∈ cycle) ↔
          Relation.TransGen repository.RefersTo name other ∧
            Relation.TransGen repository.RefersTo other name) ∧
      (build repository bindings).cycles.flatten.Nodup ∧
      (∀ cycle ∈ (build repository bindings).cycles, cycle ≠ [] ∧ cycle.Pairwise (· < ·)) ∧
      (build repository bindings).cycles.Pairwise (· < ·) ∧
      (∀ source target, (source, target) ∈ (build repository bindings).edges ↔
        repository.RefersTo source target) ∧
      (∀ reference, reference ∈ (build repository bindings).dangling ↔
        Dangles repository bindings reference) ∧
      (build repository bindings).dangling.Nodup ∧
      (build repository bindings).dangling.Pairwise fun a b => a.before b = true := by
  have hclosed := closed_build repository bindings
  have hcomponents := isComponents_build repository bindings
  rw [← edge_build_eq repository bindings]
  refine ⟨hcomponents, fun components h => h.cyclesAmong_eq hclosed hcomponents,
    fun name => hcomponents.exists_mem_cyclesAmong_iff hclosed,
    hcomponents.mem_cyclesAmong_pair_iff hclosed,
    hcomponents.nodup_flatten_cyclesAmong hclosed, fun cycle hcycle => ?_,
    hcomponents.pairwise_cyclesAmong, fun _ _ => Iff.rfl, fun _ => mem_dangling_build,
    nodup_dangling_build repository bindings, pairwise_dangling_build repository bindings⟩
  exact ⟨hcomponents.ne_nil_of_mem_cyclesAmong hclosed hcycle,
    ((hcomponents.mem_cyclesAmong_iff hclosed).1 hcycle).1⟩

/-- Models that refer to each other form a cycle, and so does one that refers to itself. -/
example : (ModelGraph.mk ["Node", "B", "A", "Leaf"]
    [("Node", "Node"), ("B", "A"), ("A", "B"), ("A", "Leaf")] []).cycles =
      [["A", "B"], ["Node"]] := by
  decide

end ModelGraph

end ApiCatalog
