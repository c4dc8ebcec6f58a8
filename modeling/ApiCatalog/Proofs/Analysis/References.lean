import ApiCatalog.Proofs.Extraction.References
import ApiCatalog.Proofs.Graph.Cycles
import ApiCatalog.Proofs.Resolution.Reports

set_option autoImplicit false

/-!
# References of an analysis

What the repository and the bindings of an analysis refer to. Without cycles among the components
everything is registered before it is referred to. In general a reference may precede its model,
and if nothing was reported, only one kind of reference can lead to no model at all: that to an
alias on a cycle, whose schema was registered under another id.

## Main definitions

* `Analysis.Mentions`: a model or a binding refers to a name.

## Main results

* `ApiCatalog.sorted_of_acyclic`: without cycles of components, models are registered in the order
  of their references, and no reference dangles.
* `ApiCatalog.dangling_of_succeeded`: which references dangle if nothing was reported.
-/

namespace ApiCatalog

/-- An analysis is the account of an extraction that was not cancelled. -/
theorem analyze_ok {document : Document} {options : Options} {analysis : Analysis}
    (h : analyze document options = .ok analysis) :
    ∃ state, extract document options = .ok state ∧ state.resolver.cancelled = false ∧
      analysis = .ofState state := by
  unfold analyze at h
  cases hextract : extract document options with
  | error abort =>
    rw [hextract] at h
    cases h
  | ok state =>
    rw [hextract] at h
    simp only at h
    split at h
    · cases h
    · next hcancelled =>
      cases h
      exact ⟨state, rfl, by simpa using hcancelled, rfl⟩

/-! ## The order of registration -/

/-- The references in a component lead to what it refers to. -/
theorem Document.leads_of_find? {document : Document} {id : String} {node : Node} {hint : ModelName}
    (h : document.schemas.find? id = some node) :
    document.Leads [id] (.atNode node hint false) := by
  intro start hstart target htarget other hother
  obtain rfl := List.mem_singleton.1 hstart
  exact .single ⟨node, h, target, htarget, hother⟩

/-- The order of registration is kept up by all resolutions. -/
theorem sustained_ordered (document : Document) (cancelAt : Option Nat) (included : Prop) :
    Sustained ⟨document, cancelAt⟩ included document.Ordered document.Placed where
  mono := fun hgrows h => h.mono hgrows
  record := fun diagnostic h => h.record diagnostic
  node := fun hrun hordered => hrun.ordered (fun _ h => absurd h List.not_mem_nil) trivial hordered
  component := by
    intro id node state resolution state' _ hfind _ hrun hordered
    obtain ⟨hordered', hanswers⟩ := hrun.ordered (Document.leads_of_find? hfind) trivial hordered
    exact hordered'.memoise hanswers

/-- The initial state is in order. -/
theorem Document.ordered_initial (document : Document) (options : Options) :
    document.Ordered options.initialState.resolver where
  models := by
    intro before model after hsplit
    have hempty : before ++ model :: after = [] := hsplit.symm
    simp at hempty
  memo := fun _ _ h => nomatch h

/-- At the end of an extraction, models are in order and bindings refer to placed names. -/
theorem ordered_of_extract {document : Document} {options : Options} {state : ExtractionState}
    (h : extract document options = .ok state) :
    state.Sustains document.Ordered document.Placed :=
  (sustained_ordered document options.cancelAt _).extract (document.ordered_initial options) h

/-! ## What is mentioned -/

/-- A model or a binding refers to a name. -/
def Analysis.Mentions (analysis : Analysis) (name : ModelName) : Prop :=
  ModelGraph.Mentions analysis.models analysis.bindings name

/-- No reference dangles exactly if all that is mentioned is registered. -/
theorem danglingReferences_eq_zero_iff {document : Document} {options : Options}
    {analysis : Analysis} (h : analyze document options = .ok analysis) :
    analysis.statistics.danglingReferences = 0 ↔
      ∀ name, analysis.Mentions name → analysis.models.contains name = true := by
  obtain ⟨state, -, -, rfl⟩ := analyze_ok h
  have hcount : (Analysis.ofState state).statistics.danglingReferences = _ :=
    (Statistics.references_collect _ _ _ _).2
  rw [hcount, List.length_eq_zero_iff]
  exact ModelGraph.dangling_build_eq_nil_iff

/-- What is mentioned is registered or lies on a cycle. -/
theorem placed_of_mentions {document : Document} {options : Options} {state : ExtractionState}
    (h : extract document options = .ok state) {name : ModelName}
    (hname : (Analysis.ofState state).Mentions name) : document.Placed state.resolver name := by
  obtain ⟨hordered, hbindings⟩ := ordered_of_extract h
  rcases hname with ⟨model, hmodel, hname⟩ | ⟨references, hreferences, hname⟩
  · obtain ⟨before, after, hsplit⟩ := List.append_of_mem hmodel
    rcases hordered.models before model after hsplit name hname with hbefore | hcycle
    · left
      have hmodels : state.resolver.repository.models = before ++ model :: after := hsplit
      rw [Repository.contains_iff, Repository.names, hmodels, List.map_append]
      exact List.mem_append.2 (.inl hbefore)
    · exact .inr hcycle
  · exact hbindings references hreferences name hname

/-- **Without cycles of components, models are registered in the order of their references**, so
that there is no cycle of models, and no reference dangles.

**Proof sketch.** `Runs.ordered` says that a model refers to models before it or to components on
a cycle, and `ModelGraph.cycles_build_eq_nil` that models in this order form no cycle. -/
theorem sorted_of_acyclic {document : Document} {options : Options} {analysis : Analysis}
    (hacyclic : document.Acyclic) (h : analyze document options = .ok analysis) :
    analysis.models.Sorted ∧ analysis.statistics.cyclesDetected = 0 ∧
      analysis.statistics.danglingReferences = 0 := by
  obtain ⟨state, hextract, -, rfl⟩ := analyze_ok h
  have hsorted : state.resolver.repository.Sorted := by
    intro before model after hsplit name hname
    have hplaced := (ordered_of_extract hextract).1.models before model after hsplit name hname
    exact hplaced.resolve_right (hacyclic name)
  refine ⟨hsorted, ?_, ?_⟩
  · have hcount : (Analysis.ofState state).statistics.cyclesDetected = _ :=
      (Statistics.references_collect _ _ _ _).1
    rw [hcount, ModelGraph.cycles_build_eq_nil hsorted]
    rfl
  · rw [danglingReferences_eq_zero_iff h]
    exact fun name hname => (placed_of_mentions hextract hname).resolve_right (hacyclic name)

/-- What a result is checked for holds of it. -/
theorem exists_of_any_toOption {ε α : Type} {result : Except ε α} {check : α → Bool}
    (h : result.toOption.any check = true) : ∃ a, result = .ok a ∧ check a = true := by
  cases result with
  | ok a => exact ⟨a, rfl, h⟩
  | error error => cases h

/-- An object that refers to another, one property of which cannot be resolved. -/
def chain : Document :=
  .ofSchemas [
    ("A", .inline { types := .ofList [.object],
                    properties := [("b", .reference "#/components/schemas/B")] }),
    ("B", .inline { types := .ofList [.object],
                    properties := [("c", .inline { types := .ofList [.string] }),
                                   ("d", .inline {})] })]

/-- The order of registration in an analysis that meets a failure. -/
theorem sorted_chain :
    chain.Acyclic ∧ ∃ analysis, analyze chain {} = .ok analysis ∧
      analysis.models.names = ["#/primitive/string", "B", "A"] ∧
      analysis.models.Sorted ∧ analysis.statistics.cyclesDetected = 0 ∧
      analysis.statistics.danglingReferences = 0 := by
  have hacyclic : chain.Acyclic :=
    Document.acyclic_of_rank (fun id => if id = "A" then 1 else 0) (by decide)
  have hcheck : ((analyze chain {}).toOption.any fun analysis =>
      analysis.models.names = ["#/primitive/string", "B", "A"]) = true := by decide +kernel
  obtain ⟨analysis, h, hnames⟩ := exists_of_any_toOption hcheck
  exact ⟨hacyclic, analysis, h, by simpa using hnames, sorted_of_acyclic hacyclic h⟩

/-! ## Dangling references -/

/-- The components whose own id need not be registered although references were answered with it:
aliases, if the pass over components resolves them by themselves. -/
def Document.Strays (document : Document) (included : Prop) (id : String) : Prop :=
  included ∧ document.IsAlias id

/-- Unless the extraction is cancelled, promises are kept and failures are reported. -/
def Document.Faithful (document : Document) (included : Prop) (state : ResolverState) : Prop :=
  state.cancelled = false → document.Keeps (document.Strays included) [] state ∧ state.Accounted

/-- Unless the extraction is cancelled, a name is kept. -/
def Document.Trusted (document : Document) (included : Prop) (state : ResolverState)
    (name : ModelName) : Prop :=
  state.cancelled = false → document.Kept (document.Strays included) [] state name

/-- A component that is resolved by itself keeps its promise, or is an alias. -/
theorem Document.settled_of_runs {context : Context} {included : Prop} {id : String} {node : Node}
    {state state' : ResolverState} {resolution : Resolution} (hincluded : included)
    (hfind : context.document.schemas.find? id = some node)
    (hrun : Runs context [id] (.atNode node id false) state resolution state')
    (hend : state'.cancelled = false) :
    context.document.Strays included id ∨ (context.document.Carries id →
      state'.repository.contains id = true ∨ ∃ schema,
        context.document.StandsFor id schema ∧ schema.composition? = none ∧
        schema.types.contains .object = false ∧ schema.types.contains .array = true ∧
        resolution.succeeded = false) := by
  cases node with
  | reference target => exact .inl ⟨hincluded, target, hfind⟩
  | inline schema =>
    right
    rintro ⟨schema', hstands, hparts⟩
    rw [hstands.unique (.inPlace hfind)] at hparts
    cases hrun with
    | cancelled hcancelled =>
      rw [hcancelled] at hend
      cases hend
    | inline _ hschema =>
      exact (hschema.registers hend hparts).imp_right fun h => ⟨schema, .inPlace hfind, h⟩

/-- Promises and reports are kept up by all resolutions. -/
theorem sustained_faithful (document : Document) (cancelAt : Option Nat) (included : Prop) :
    Sustained ⟨document, cancelAt⟩ included (document.Faithful included)
      (document.Trusted included) where
  mono := fun hgrows h hend => (h (hgrows.not_cancelled hend)).mono hgrows
  record := by
    intro state diagnostic h hend
    obtain ⟨hkeeps, haccounted⟩ := h hend
    exact ⟨hkeeps.record diagnostic, fun id resolution hmemo hfailed =>
      (haccounted id resolution hmemo hfailed).mono (.record _ _)⟩
  node := by
    intro node hint state resolution state' hrun h
    have hafter : ∀ hend : state'.cancelled = false, _ := fun hend =>
      hrun.keeps hend (fun _ _ hactive => absurd hactive List.not_mem_nil) trivial
        (h (hrun.grows.not_cancelled hend)).1
    refine ⟨fun hend => ⟨(hafter hend).1, ?_⟩, fun hsucceeded name hname hend =>
      (hafter hend).2 hsucceeded name hname⟩
    exact (hrun.accounts hend trivial (h (hrun.grows.not_cancelled hend)).2).1
  component := by
    intro id node state resolution state' hincluded hfind hnew hrun h hend
    rw [ResolverState.cancelled_memoise] at hend
    obtain ⟨hkeeps, haccounted⟩ := h (hrun.grows.not_cancelled hend)
    have hactive : (Stage.atNode node id false).HasParts → ∀ other ∈ [id],
        document.Strays included other ∨ document.Carries other := by
      intro hparts other hother
      obtain rfl := List.mem_singleton.1 hother
      cases node with
      | reference target => exact .inl ⟨hincluded, target, hfind⟩
      | inline schema => exact .inr ⟨schema, .inPlace hfind, hparts⟩
    obtain ⟨hkeeps', hanswers⟩ := hrun.keeps hend hactive trivial (hkeeps.weaken id)
    obtain ⟨haccounted', haccounts⟩ := hrun.accounts hend trivial haccounted
    exact ⟨(hkeeps'.settle hend (hrun.memo_active List.mem_cons_self hnew) hanswers
        (Document.settled_of_runs hincluded hfind hrun hend)).1,
      haccounted'.memoise haccounts.reported⟩

/-- At the end of an extraction that was not cancelled, promises are kept and failures are
reported. -/
theorem faithful_of_extract {document : Document} {options : Options} {state : ExtractionState}
    (h : extract document options = .ok state) :
    state.Sustains (document.Faithful (options.includeComponents = true))
      (document.Trusted (options.includeComponents = true)) := by
  refine (sustained_faithful document options.cancelAt _).extract (fun _ => ⟨⟨?_, ?_⟩, ?_⟩) h
  · exact fun _ hmodel => absurd hmodel List.not_mem_nil
  · exact fun _ _ hmemo => nomatch hmemo
  · exact fun _ _ hmemo => nomatch hmemo

/-- What is mentioned at the end of an extraction is kept. -/
theorem kept_of_mentions {document : Document} {options : Options} {state : ExtractionState}
    (h : extract document options = .ok state) (hend : state.resolver.cancelled = false)
    {name : ModelName} (hname : (Analysis.ofState state).Mentions name) :
    document.Kept (document.Strays (options.includeComponents = true)) [] state.resolver name := by
  obtain ⟨hfaithful, htrusted⟩ := faithful_of_extract h
  rcases hname with ⟨model, hmodel, hname⟩ | ⟨references, hreferences, hname⟩
  · exact (hfaithful hend).1.models model hmodel name hname
  · exact htrusted references hreferences name hname hend

/-- If nothing was reported, what is mentioned is registered, or an alias on a cycle that the pass
over components has resolved. -/
theorem contains_or_stray_of_mentions {document : Document} {options : Options}
    {analysis : Analysis} (h : analyze document options = .ok analysis)
    (hsucceeded : analysis.succeeded = true) {name : ModelName} (hname : analysis.Mentions name) :
    analysis.models.contains name = true ∨
      (document.Strays (options.includeComponents = true) name ∧ document.OnCycle name) := by
  obtain ⟨state, hextract, hend, rfl⟩ := analyze_ok h
  have haccounted := ((faithful_of_extract hextract).1 hend).2
  have hsilent : ¬ state.resolver.Reports := by
    rintro ⟨diagnostic, hmem, -⟩
    have hempty : state.resolver.diagnostics = [] := List.isEmpty_iff.1 hsucceeded
    rw [hempty] at hmem
    cases hmem
  rcases kept_of_mentions hextract hend hname with hkept | ⟨hactive, -⟩ | hstray | hlost
  · exact .inl hkept
  · cases hactive
  · exact (placed_of_mentions hextract hname).imp_right fun hcycle => ⟨hstray, hcycle⟩
  · obtain ⟨schema, resolution, -, -, -, -, hmemo, hfailed⟩ := hlost
    exact absurd (haccounted _ _ hmemo hfailed) hsilent

/-- **Which references dangle if nothing was reported**: those to an alias on a cycle of references
under whose id nothing was registered, which only the pass over components can bring about. In
particular none do if that pass is left out, or if no alias lies on a cycle.

**Proof sketch.** `Runs.keeps` says that what is mentioned is registered, a stray, or an array that
was not resolved; the last is excluded by `Runs.accounts`, since it would have been reported. A
stray that is not registered lies on a cycle by `Runs.ordered`. -/
theorem dangling_of_succeeded {document : Document} {options : Options} {analysis : Analysis}
    (h : analyze document options = .ok analysis) (hsucceeded : analysis.succeeded = true) :
    (analysis.statistics.danglingReferences = 0 ↔
      ∀ id, document.IsAlias id → document.OnCycle id → analysis.Mentions id →
        analysis.models.contains id = true) ∧
    ((options.includeComponents = true → ∀ id, document.IsAlias id → ¬ document.OnCycle id) →
      analysis.statistics.danglingReferences = 0) := by
  have hmentioned : ∀ name, analysis.Mentions name → analysis.models.contains name = true ∨
      (document.Strays (options.includeComponents = true) name ∧ document.OnCycle name) :=
    fun _ => contains_or_stray_of_mentions h hsucceeded
  rw [danglingReferences_eq_zero_iff h]
  refine ⟨⟨fun hall id _ _ hid => hall id hid, fun hall name hname => ?_⟩,
    fun hall name hname => ?_⟩
  · rcases hmentioned name hname with hknown | ⟨⟨-, halias⟩, hcycle⟩
    · exact hknown
    · exact hall name halias hcycle hname
  · rcases hmentioned name hname with hknown | ⟨⟨hincluded, halias⟩, hcycle⟩
    · exact hknown
    · exact absurd hcycle (hall hincluded name halias)

/-- An alias of an object that refers back to it. -/
def aliasLoop : Document :=
  .ofSchemas [
    ("A", .reference "#/components/schemas/B"),
    ("B", .inline { types := .ofList [.object],
                    properties := [("p", .reference "#/components/schemas/A")] })]

/-- The analysis of this document reports nothing, and one reference dangles. -/
theorem succeeded_aliasLoop : ((analyze aliasLoop {}).toOption.any fun analysis =>
    analysis.succeeded && analysis.statistics.danglingReferences = 1) = true := by
  decide +kernel

/-- **A reference may dangle although nothing was reported**: the alias `A` is resolved by itself,
the reference back to it is answered with its id, and the object is registered as `B`. -/
theorem dangling_aliasLoop :
    ∃ analysis, analyze aliasLoop {} = .ok analysis ∧ analysis.succeeded = true ∧
      analysis.statistics.danglingReferences = 1 := by
  obtain ⟨analysis, h, hcheck⟩ := exists_of_any_toOption succeeded_aliasLoop
  obtain ⟨hsucceeded, hcount⟩ := Bool.and_eq_true_iff.1 hcheck
  exact ⟨analysis, h, hsucceeded, by simpa using hcount⟩

/-- The reference that dangles is one to an alias on a cycle. -/
theorem stray_aliasLoop :
    ∃ analysis, analyze aliasLoop {} = .ok analysis ∧ analysis.succeeded = true ∧
      ∃ id, aliasLoop.IsAlias id ∧ aliasLoop.OnCycle id ∧ analysis.Mentions id ∧
        analysis.models.contains id = false := by
  obtain ⟨analysis, h, hcheck⟩ := exists_of_any_toOption succeeded_aliasLoop
  obtain ⟨hsucceeded, hcount⟩ := Bool.and_eq_true_iff.1 hcheck
  refine ⟨analysis, h, hsucceeded, ?_⟩
  have hdangles : ¬ ∀ id, aliasLoop.IsAlias id → aliasLoop.OnCycle id → analysis.Mentions id →
      analysis.models.contains id = true := by
    rw [← (dangling_of_succeeded h hsucceeded).1]
    have hone : analysis.statistics.danglingReferences = 1 := by simpa using hcount
    omega
  push Not at hdangles
  obtain ⟨id, halias, hcycle, hmentions, hmissing⟩ := hdangles
  exact ⟨id, halias, hcycle, hmentions, by simpa using hmissing⟩

end ApiCatalog
