import ApiCatalog.Proofs.Graph.Basic
import Mathlib.Data.List.Perm.Subperm

set_option autoImplicit false

/-!
# The strongly connected components of the model graph

Exploration is complete: it finds every name that references lead to. So the components that are
computed are the classes of the nodes that reach each other.

## Main definitions

* `ModelGraph.Closed`: references lead from nodes to nodes.
* `ModelGraph.Exploring`: what holds between two rounds of an exploration.
* `ModelGraph.Connected`: references lead from each of two names to the other.
* `ModelGraph.IsComponents`: some lists of names are the strongly connected components.

## Main results

* `ModelGraph.mem_explore_of_edge`: what is explored is closed under references.
* `ModelGraph.mem_reachable_iff`: what is found reachable is what references lead to.
* `ModelGraph.isComponents_components`: what is computed are the components.
-/

namespace ApiCatalog

namespace ModelGraph

variable {graph : ModelGraph} {source target : ModelName}

/-! ## Exploration -/

/-- References lead from nodes to nodes. -/
def Closed (graph : ModelGraph) : Prop :=
  ∀ source target, graph.Edge source target → source ∈ graph.nodes ∧ target ∈ graph.nodes

/-- What is reached from a node, and what reaches one, is a node. -/
theorem Closed.transGen (h : graph.Closed) (hreach : Relation.TransGen graph.Edge source target) :
    source ∈ graph.nodes ∧ target ∈ graph.nodes := by
  induction hreach with
  | single hedge => exact h _ _ hedge
  | tail _ hedge ih => exact ⟨ih.1, (h _ _ hedge).2⟩

/-- A list is extended at its end. -/
theorem prefix_extend {α : Type} [DecidableEq α] (seen found : List α) :
    seen <+: extend seen found := by
  induction found generalizing seen with
  | nil => exact List.prefix_refl _
  | cons member rest ih =>
    rw [extend]
    split
    · exact ih seen
    · exact (List.prefix_append seen [member]).trans (ih _)

/-- No member is added twice. -/
theorem nodup_extend {α : Type} [DecidableEq α] {seen : List α} (found : List α)
    (h : seen.Nodup) : (extend seen found).Nodup := by
  induction found generalizing seen with
  | nil => exact h
  | cons member rest ih =>
    rw [extend]
    split
    · exact ih h
    · next hnew =>
      refine ih (List.nodup_append.2 ⟨h, List.nodup_singleton member, ?_⟩)
      rintro a ha b hb rfl
      exact hnew (List.mem_singleton.1 hb ▸ ha)

/-- What holds between two rounds of an exploration: only the names found last may have references
to names that are not seen, and the rounds left suffice to find all nodes one by one. -/
structure Exploring (graph : ModelGraph) (rounds : Nat) (seen latest : List ModelName) :
    Prop where
  nodup : seen.Nodup
  nodes : ∀ name ∈ seen, name ∈ graph.nodes
  enough : graph.nodes.length ≤ seen.length + rounds
  followed : ∀ name ∈ seen, name ∉ latest → ∀ target, graph.Edge name target → target ∈ seen

/-- Without rounds left, all nodes are seen. -/
theorem Exploring.mem_of_zero {seen latest : List ModelName} (h : graph.Exploring 0 seen latest)
    (hnode : target ∈ graph.nodes) : target ∈ seen := by
  have hsub : seen.Subperm graph.nodes := h.nodup.subperm h.nodes
  exact (hsub.perm_of_length_le h.enough).mem_iff.2 hnode

/-- A round that finds a name leads to the next one. -/
theorem Exploring.next {rounds : Nat} {seen latest : List ModelName} (hclosed : graph.Closed)
    (h : graph.Exploring (rounds + 1) seen latest)
    (hnew : (extend seen (latest.flatMap graph.successors)).length ≠ seen.length) :
    graph.Exploring rounds (extend seen (latest.flatMap graph.successors))
      ((extend seen (latest.flatMap graph.successors)).drop seen.length) := by
  obtain ⟨new, hfound⟩ := prefix_extend seen (latest.flatMap graph.successors)
  refine ⟨nodup_extend _ h.nodup, fun name hname => ?_, ?_, fun name hname hlast target hedge => ?_⟩
  · rcases mem_extend.1 hname with hname | hname
    · exact h.nodes name hname
    · obtain ⟨last, -, hname⟩ := List.mem_flatMap.1 hname
      exact (hclosed _ _ (mem_successors.1 hname)).2
  · have henough := h.enough
    rw [← hfound, List.length_append] at hnew ⊢
    omega
  · -- a name that is not new was seen before, so that its references were followed
    rw [← hfound, List.drop_left] at hlast
    rw [← hfound, List.mem_append] at hname
    have hseen : name ∈ seen := hname.resolve_right hlast
    refine mem_extend.2 ?_
    by_cases hlatest : name ∈ latest
    · exact .inr (List.mem_flatMap.2 ⟨name, hlatest, mem_successors.2 hedge⟩)
    · exact .inl (h.followed name hseen hlatest target hedge)

/-- What is seen is explored. -/
theorem mem_explore_of_mem {rounds : Nat} {seen latest : List ModelName} (h : target ∈ seen) :
    target ∈ graph.explore rounds seen latest := by
  induction rounds generalizing seen latest with
  | zero => exact h
  | succ rounds ih =>
    rw [explore]
    split
    · exact h
    · exact ih (mem_extend.2 (.inl h))

/-- **What is explored is closed under references**: those of the names found last are followed,
and those of what is found.

**Proof sketch.** Induction on the rounds. When none are left, all nodes are seen; when a round
finds nothing, the references of the names found last lead to names that were seen. -/
theorem mem_explore_of_edge {rounds : Nat} {seen latest : List ModelName}
    (hclosed : graph.Closed) (h : graph.Exploring rounds seen latest)
    (hname : source ∈ latest ∨ source ∈ graph.explore rounds seen latest)
    (hedge : graph.Edge source target) : target ∈ graph.explore rounds seen latest := by
  induction rounds generalizing seen latest with
  | zero => exact h.mem_of_zero (hclosed _ _ hedge).2
  | succ rounds ih =>
    have hfollowed : source ∈ latest → target ∈ extend seen (latest.flatMap graph.successors) :=
      fun hlatest => mem_extend.2 (.inr (List.mem_flatMap.2
        ⟨source, hlatest, mem_successors.2 hedge⟩))
    rw [explore] at hname ⊢
    split at hname
    · next hsame =>
      rw [if_pos hsame]
      obtain ⟨new, hfound⟩ := prefix_extend seen (latest.flatMap graph.successors)
      have hnone : new = [] := by
        rw [← hfound, List.length_append] at hsame
        exact List.length_eq_zero_iff.1 (by omega)
      rw [← hfound, hnone, List.append_nil] at hfollowed
      by_cases hlatest : source ∈ latest
      · exact hfollowed hlatest
      · exact h.followed source (hname.resolve_left hlatest) hlatest target hedge
    · next hnew =>
      rw [if_neg hnew]
      rcases hname with hlatest | hname
      · exact mem_explore_of_mem (hfollowed hlatest)
      · exact ih (h.next hclosed hnew) (.inr hname)

/-- **What is found reachable is what references lead to.** -/
theorem mem_reachable_iff (hclosed : graph.Closed) :
    target ∈ graph.reachable source ↔ Relation.TransGen graph.Edge source target := by
  refine ⟨transGen_of_mem_reachable, fun hreach => ?_⟩
  have hstart : graph.Exploring graph.nodes.length [] [source] :=
    ⟨List.nodup_nil, fun _ h => absurd h List.not_mem_nil, by simp,
      fun _ h => absurd h List.not_mem_nil⟩
  induction hreach with
  | single hedge =>
    exact mem_explore_of_edge hclosed hstart (.inl (List.mem_singleton_self _)) hedge
  | tail _ hedge ih => exact mem_explore_of_edge hclosed hstart (.inr ih) hedge

/-- What the table of a graph says. -/
theorem reaches_reachTable_iff (hclosed : graph.Closed) :
    reaches graph.reachTable source target = true ↔
      Relation.TransGen graph.Edge source target := by
  refine ⟨transGen_of_reaches, fun hreach => List.any_eq_true.2 ?_⟩
  refine ⟨_, List.mem_map.2 ⟨source, (hclosed.transGen hreach).1, rfl⟩, ?_⟩
  simpa using (mem_reachable_iff hclosed).2 hreach

/-! ## Components -/

/-- References lead from each of two names to the other, or the names are one. -/
def Connected (graph : ModelGraph) (name other : ModelName) : Prop :=
  Relation.ReflTransGen graph.Edge name other ∧ Relation.ReflTransGen graph.Edge other name

namespace Connected

variable {first second third : ModelName}

/-- A name is connected with itself. -/
theorem refl (name : ModelName) : graph.Connected name name :=
  ⟨.refl, .refl⟩

/-- Connected names are connected either way. -/
theorem symm (h : graph.Connected first second) : graph.Connected second first :=
  ⟨h.2, h.1⟩

/-- Names connected with one name are connected. -/
theorem trans (h : graph.Connected first second) (h' : graph.Connected second third) :
    graph.Connected first third :=
  ⟨h.1.trans h'.1, h'.2.trans h.2⟩

/-- Different names are connected by references. -/
theorem transGen (h : graph.Connected first second) (hne : first ≠ second) :
    Relation.TransGen graph.Edge first second ∧ Relation.TransGen graph.Edge second first :=
  ⟨(Relation.reflTransGen_iff_eq_or_transGen.1 h.1).resolve_left hne.symm,
    (Relation.reflTransGen_iff_eq_or_transGen.1 h.2).resolve_left hne⟩

end Connected

/-- Lists of names are the strongly connected components of a graph: none is empty, no name is
listed twice, they have all nodes, and each consists of the names that are connected with any one
of its members. The order of the components, and that of their members, is not said. -/
structure IsComponents (graph : ModelGraph) (components : List (List ModelName)) : Prop where
  nonempty : ∀ component ∈ components, component ≠ []
  nodup : components.flatten.Nodup
  nodes : ∀ name, (∃ component ∈ components, name ∈ component) ↔ name ∈ graph.nodes
  connected : ∀ component ∈ components, ∀ name ∈ component, ∀ other,
    other ∈ component ↔ graph.Connected name other

/-- The table of a graph says which names are connected. -/
theorem together_reachTable_iff (hclosed : graph.Closed) {name other : ModelName} :
    together graph.reachTable name other = true ↔ graph.Connected name other := by
  rw [together, Bool.or_eq_true, Bool.and_eq_true, decide_eq_true_eq,
    reaches_reachTable_iff hclosed, reaches_reachTable_iff hclosed]
  constructor
  · rintro (rfl | ⟨hto, hback⟩)
    · exact .refl name
    · exact ⟨hto.to_reflTransGen, hback.to_reflTransGen⟩
  · intro h
    by_cases hsame : name = other
    · exact .inl hsame
    · exact .inr (h.transGen hsame)

/-- What is connected with a node is a node. -/
theorem Closed.mem_of_connected (h : graph.Closed) {name other : ModelName}
    (hnode : name ∈ graph.nodes) (hconnected : graph.Connected name other) :
    other ∈ graph.nodes := by
  by_cases hsame : name = other
  · exact hsame ▸ hnode
  · exact (h.transGen (hconnected.transGen hsame).1).2

/-- The components of a graph are the classes of its nodes. -/
theorem mem_components_iff {component : List ModelName} :
    component ∈ graph.components ↔
      ∃ name ∈ graph.nodes, graph.nodes.filter (together graph.reachTable name) = component := by
  simp [components, mem_extend]

/-- The members of the class of a node. -/
theorem mem_filter_together_iff (hclosed : graph.Closed) {name other : ModelName}
    (hnode : name ∈ graph.nodes) :
    other ∈ graph.nodes.filter (together graph.reachTable name) ↔ graph.Connected name other := by
  rw [List.mem_filter, together_reachTable_iff hclosed]
  exact and_iff_right_of_imp (hclosed.mem_of_connected hnode)

/-- Connected nodes have one class. -/
theorem filter_together_eq (hclosed : graph.Closed) {name other : ModelName}
    (h : graph.Connected name other) :
    graph.nodes.filter (together graph.reachTable name) =
      graph.nodes.filter (together graph.reachTable other) := by
  refine List.filter_congr fun third _ => ?_
  rw [Bool.eq_iff_iff, together_reachTable_iff hclosed, together_reachTable_iff hclosed]
  exact ⟨h.symm.trans, h.trans⟩

/-- **What is computed are the strongly connected components.**

**Proof sketch.** The class of a node consists of the nodes connected with it
(`mem_filter_together_iff`), so classes that have a member in common are one class
(`filter_together_eq`), which is listed once. -/
theorem isComponents_components (hclosed : graph.Closed) (hnodup : graph.nodes.Nodup) :
    graph.IsComponents graph.components where
  nonempty := by
    intro component hcomponent
    obtain ⟨name, hnode, rfl⟩ := mem_components_iff.1 hcomponent
    exact List.ne_nil_of_mem ((mem_filter_together_iff hclosed hnode).2 (.refl name))
  nodup := by
    refine List.nodup_flatten.2 ⟨fun component hcomponent => ?_, ?_⟩
    · obtain ⟨name, -, rfl⟩ := mem_components_iff.1 hcomponent
      exact hnodup.filter _
    · have hclasses : graph.components.Nodup := nodup_extend _ List.nodup_nil
      refine hclasses.pairwise_of_forall_ne fun component hcomponent component' hcomponent' hne => ?_
      obtain ⟨name, hnode, rfl⟩ := mem_components_iff.1 hcomponent
      obtain ⟨name', hnode', rfl⟩ := mem_components_iff.1 hcomponent'
      intro other hother hother'
      have hto := (mem_filter_together_iff hclosed hnode).1 hother
      have hto' := (mem_filter_together_iff hclosed hnode').1 hother'
      exact hne (filter_together_eq hclosed (hto.trans hto'.symm))
  nodes := by
    intro name
    constructor
    · rintro ⟨component, hcomponent, hname⟩
      obtain ⟨first, -, rfl⟩ := mem_components_iff.1 hcomponent
      exact List.mem_of_mem_filter hname
    · intro hnode
      exact ⟨_, mem_components_iff.2 ⟨name, hnode, rfl⟩,
        (mem_filter_together_iff hclosed hnode).2 (.refl name)⟩
  connected := by
    intro component hcomponent name hname other
    obtain ⟨first, hnode, rfl⟩ := mem_components_iff.1 hcomponent
    have hfirst := (mem_filter_together_iff hclosed hnode).1 hname
    rw [mem_filter_together_iff hclosed hnode]
    exact ⟨hfirst.symm.trans, hfirst.trans⟩

end ModelGraph

end ApiCatalog
