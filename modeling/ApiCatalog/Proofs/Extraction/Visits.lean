import ApiCatalog.Proofs.Extraction.Lookups

set_option autoImplicit false

/-!
# What the passes visit

The passes take up their entries in order, until the extraction is cancelled. So in an extraction
that was not cancelled each entry has its turn, in the state that the entries before it have left.

## Main definitions

* `Extraction.untilCancelled`: entries are taken up in order, until the extraction is cancelled.
* `Document.Provides`: the operation that provides a node with its endpoint for a method.

## Main results

* `Extraction.untilCancelled_append_iff`, `Extraction.exists_turn`: each entry has its turn.
* `Document.findSome?_contribution_eq_some`: the first endpoint that the paths provide.
* `Extraction.takesUpParameters_of_extractPaths`: the parameters that a pass over the paths has taken
  up.
* `Extraction.resolves_of_extractComponents`: what a pass over the components has resolved.
-/

namespace ApiCatalog

namespace Extraction

/-! ## Turns -/

section Turns

variable {ε α : Type} {step : ε → Extraction α} {state final : ExtractionState}

/-- Entries are taken up in order, until the extraction is cancelled. -/
def untilCancelled (step : ε → Extraction α) : List ε → Extraction Unit
  | [] => pure ()
  | entry :: rest => do
    if ← isCancelled then return ()
    else
      let _ ← step entry
      untilCancelled step rest

/-- The pass over paths takes up paths in order. -/
theorem extractPaths_eq (context : Context) (paths : List (String × PathItem)) :
    extractPaths context paths =
      untilCancelled (fun entry => extractPath context entry.1 entry.2) paths := by
  induction paths with
  | nil => rfl
  | cons entry rest ih =>
    rw [untilCancelled, ← ih]
    rfl

/-- Operations are taken up in order. -/
theorem extractOperations_eq (context : Context) (template : String) (shared : ParameterMap)
    (walked : WalkedPath) (operations : List (HttpMethod × Operation)) :
    extractOperations context template shared walked operations =
      untilCancelled (fun entry =>
        extractOperation context template shared walked entry.1 entry.2) operations := by
  induction operations with
  | nil => rfl
  | cons entry rest ih => rw [extractOperations_cons, untilCancelled, ih]

/-- The pass over components takes up components in order. -/
theorem extractComponents_eq (context : Context) (components : List (String × Node)) :
    extractComponents context components =
      untilCancelled (fun entry => ofResolver (resolveComponent context entry.1 entry.2))
        components := by
  induction components with
  | nil => rfl
  | cons entry rest ih => rw [extractComponents, untilCancelled, ih]

/-- Entries are taken up in order: none if the extraction was cancelled, or else the first one and
then the others. -/
theorem untilCancelled_cons_iff {entry : ε} {rest : List ε} :
    untilCancelled step (entry :: rest) state = .ok () final ↔
      (state.resolver.cancelled = true ∧ final = state) ∨ (state.resolver.cancelled = false ∧
        ∃ answer after, step entry state = .ok answer after ∧
          untilCancelled step rest after = .ok () final) := by
  have hasked : isCancelled state = .ok state.resolver.cancelled state := rfl
  constructor
  · intro h
    obtain ⟨_, _, hcancelled, h⟩ := bind_eq_ok_iff.1 h
    cases hasked.symm.trans hcancelled
    split at h
    · next hcancelled =>
      cases h
      exact .inl ⟨hcancelled, rfl⟩
    · next hactive =>
      exact .inr ⟨by simpa using hactive, bind_eq_ok_iff.1 h⟩
  · rintro (⟨hcancelled, rfl⟩ | ⟨hactive, hrest⟩)
    · refine bind_eq_ok_iff.2 ⟨_, _, hasked, ?_⟩
      rw [hcancelled]
      rfl
    · refine bind_eq_ok_iff.2 ⟨_, _, hasked, ?_⟩
      rw [hactive]
      exact bind_eq_ok_iff.2 hrest

/-- No entry is taken up after the cancellation. -/
theorem untilCancelled_of_cancelled {step : ε → Extraction α} (entries : List ε)
    (hstate : state.resolver.cancelled = true) :
    untilCancelled step entries state = .ok () state := by
  cases entries with
  | nil => rfl
  | cons entry rest => exact untilCancelled_cons_iff.2 (.inl ⟨hstate, rfl⟩)

/-- Some entries are taken up and then others. If the extraction is cancelled among the first ones,
nothing happens to the others either. -/
theorem untilCancelled_append_iff {earlier later : List ε} :
    untilCancelled step (earlier ++ later) state = .ok () final ↔
      ∃ middle, untilCancelled step earlier state = .ok () middle ∧
        untilCancelled step later middle = .ok () final := by
  induction earlier generalizing state with
  | nil =>
    constructor
    · exact fun h => ⟨state, rfl, h⟩
    · rintro ⟨_, hnone, h⟩
      cases hnone
      exact h
  | cons entry rest ih =>
    rw [List.cons_append, untilCancelled_cons_iff]
    constructor
    · rintro (⟨hcancelled, rfl⟩ | ⟨hactive, answer, after, hstep, h⟩)
      · refine ⟨final, untilCancelled_cons_iff.2 (.inl ⟨hcancelled, rfl⟩), ?_⟩
        exact untilCancelled_of_cancelled later hcancelled
      · obtain ⟨middle, hrest, hlater⟩ := ih.1 h
        exact ⟨middle, untilCancelled_cons_iff.2 (.inr ⟨hactive, answer, after, hstep, hrest⟩),
          hlater⟩
    · rintro ⟨middle, h, hlater⟩
      rcases untilCancelled_cons_iff.1 h with ⟨hcancelled, rfl⟩ | ⟨hactive, answer, after, hstep, h⟩
      · refine .inl ⟨hcancelled, ?_⟩
        cases (untilCancelled_of_cancelled later hcancelled).symm.trans hlater
        rfl
      · exact .inr ⟨hactive, answer, after, hstep, ih.2 ⟨middle, h, hlater⟩⟩

/-- **Each entry has its turn**, unless the extraction is cancelled: it is taken up in the state
that the entries before it have left. -/
theorem exists_turn {earlier later : List ε} {entry : ε}
    (h : untilCancelled step (earlier ++ entry :: later) state = .ok () final)
    (hend : final.resolver.cancelled = false) :
    ∃ before answer after, untilCancelled step earlier state = .ok () before ∧
      before.resolver.cancelled = false ∧ step entry before = .ok answer after ∧
      untilCancelled step later after = .ok () final := by
  obtain ⟨before, hbefore, hrest⟩ := untilCancelled_append_iff.1 h
  rcases untilCancelled_cons_iff.1 hrest with
    ⟨hcancelled, rfl⟩ | ⟨hactive, answer, after, hstep, hafter⟩
  · cases hend.symm.trans hcancelled
  · exact ⟨before, answer, after, hbefore, hactive, hstep, hafter⟩

end Turns

/-! ## Turns of paths and of their operations -/

section Paths

variable {document : Document} {cancelAt : Option Nat} {template : String} {item : PathItem}
  {state passed final : ExtractionState}

/-- **A path has its turn** in a pass over the paths of a document: the index was made up of the
paths before, and keeps what is there afterwards. -/
theorem exists_turn_of_path {earlier later : List (String × PathItem)}
    (hsplit : document.pathEntries = earlier ++ (template, item) :: later)
    (h : document.Indexed [] state)
    (hrun : extractPaths ⟨document, cancelAt⟩ document.pathEntries state = .ok () final)
    (hend : final.resolver.cancelled = false) :
    ∃ before after, extractPaths ⟨document, cancelAt⟩ earlier state = .ok () before ∧
      document.Indexed earlier before ∧ before.resolver.cancelled = false ∧
      extractPath ⟨document, cancelAt⟩ template item before = .ok () after ∧ after.Grows final ∧
      after.index.Extends final.index ∧
      extractPaths ⟨document, cancelAt⟩ later after = .ok () final := by
  have hmem : (template, item) ∈ document.pathEntries := by simp [hsplit]
  have hearlier : earlier ⊆ document.pathEntries := fun _ h => by simp [hsplit, h]
  have hlater : later ⊆ document.pathEntries := fun _ h => by simp [hsplit, h]
  rw [extractPaths_eq, hsplit] at hrun
  obtain ⟨before, answer, after, hbefore, hactive, hturn, hafter⟩ := exists_turn hrun hend
  rw [← extractPaths_eq] at hbefore hafter
  obtain ⟨-, taken, hindexed, -, hall⟩ :=
    (extractPaths_yields (.any _) hearlier h).answer hbefore
  obtain rfl := hall hactive
  have hadvances := (extractPath_yields (.any _) hmem hindexed.spans.proper
    hindexed.coherent).answer hturn
  have hnext := hindexed.next hadvances (coherent_extractPath hmem _ _ _ hindexed.coherent hturn)
    (grows_extractPath hmem hturn)
  refine ⟨before, after, hbefore, hindexed, hactive, hturn, ?_, ?_, hafter⟩
  · exact grows_extractPaths hlater hafter
  · exact ((extractPaths_yields (.any _) hlater hnext).answer hafter).1

/-- **The shared parameters of each path are found or reported**, and their schemas are resolved. -/
theorem takesUpParameters_of_extractPaths (h : document.Indexed [] state)
    (hrun : extractPaths ⟨document, cancelAt⟩ document.pathEntries state = .ok () passed)
    (hlater : passed.Grows final) (hend : final.resolver.cancelled = false)
    (hpath : (template, item) ∈ document.pathEntries) :
    TakesUpParameters ⟨document, cancelAt⟩ template 0 item.parameters final.resolver := by
  obtain ⟨earlier, later, hsplit⟩ := List.append_of_mem hpath
  obtain ⟨before, after, -, -, -, hturn, hgrows, -, -⟩ :=
    exists_turn_of_path hsplit h hrun (hlater.not_cancelled hend)
  obtain ⟨shared, s₁, hshared, hrest⟩ := bind_eq_ok_iff.1 hturn
  obtain ⟨answer, s₂, hwalk, hlast⟩ := bind_eq_ok_iff.1 hrest
  have hgrows₁ : s₁.Grows s₂ := grows_walkSegments document cancelAt hwalk
  have hgrows₂ : s₂.Grows after := by
    cases answer with
    | none =>
      cases hlast
      exact .refl _
    | some walked =>
      exact grows_extractOperations hpath (List.Subset.refl _) hlast
  exact (ensures_collectParameters item.parameters 0 ∅).goal hshared final
    ((hgrows₁.trans hgrows₂).trans (hgrows.trans hlater)) hend

end Paths

end Extraction

/-- An operation provides a node of an index with its endpoint for a method: it belongs to the first
path that provides any. -/
def Document.Provides (document : Document) (index : PathIndex) (id : Nat) (method : HttpMethod)
    (template : String) (item : PathItem) (operation : Operation) : Prop :=
  document.pathEntries.find? (fun entry =>
      (document.contribution index id method entry).isSome) = some (template, item) ∧
    item.operation? method = some operation

/-- **The first endpoint that the paths provide** is that of the operation that provides it. -/
theorem Document.findSome?_contribution_eq_some {document : Document} {index : PathIndex} {id : Nat}
    {method : HttpMethod} {endpoint : Endpoint} :
    document.pathEntries.findSome? (document.contribution index id method) = some endpoint ↔
      ∃ template item operation, document.Provides index id method template item operation ∧
        document.endpoint template item method operation = endpoint := by
  have hcontribution : ∀ {entry : String × PathItem} {found : Endpoint},
      document.contribution index id method entry = some found ↔
        (Acceptable entry.1 ∧ index.find? entry.1 = some id) ∧
          ∃ operation, entry.2.operation? method = some operation ∧
            document.endpoint entry.1 entry.2 method operation = found := by
    intro entry found
    rw [Document.contribution]
    split
    · next hleads => simp [hleads]
    · next hleads => simp [hleads]
  constructor
  · intro h
    obtain ⟨earlier, ⟨template, item⟩, later, hsplit, hfound, hothers⟩ :=
      List.findSome?_eq_some_iff.1 h
    obtain ⟨-, operation, hoperation, hendpoint⟩ := hcontribution.1 hfound
    refine ⟨template, item, operation, ⟨?_, hoperation⟩, hendpoint⟩
    refine List.find?_eq_some_iff_append.2 ⟨by simp [hfound], earlier, later, hsplit, ?_⟩
    exact fun entry hentry => by simp [hothers entry hentry]
  · rintro ⟨template, item, operation, ⟨hfirst, hoperation⟩, hendpoint⟩
    obtain ⟨hprovided, earlier, later, hsplit, hothers⟩ := List.find?_eq_some_iff_append.1 hfirst
    obtain ⟨found, hfound⟩ := Option.isSome_iff_exists.1 hprovided
    obtain ⟨hleads, -⟩ := hcontribution.1 hfound
    refine List.findSome?_eq_some_iff.2 ⟨earlier, (template, item), later, hsplit, ?_, ?_⟩
    · exact hcontribution.2 ⟨hleads, operation, hoperation, hendpoint⟩
    · exact fun entry hentry => by simpa using hothers entry hentry

/-- The operation that provides a node with an endpoint belongs to an acceptable template that leads
there. -/
theorem Document.Provides.leads {document : Document} {index : PathIndex} {id : Nat}
    {method : HttpMethod} {template : String} {item : PathItem} {operation : Operation}
    (h : document.Provides index id method template item operation) :
    Acceptable template ∧ index.find? template = some id := by
  have hprovided := List.find?_some h.1
  rw [Document.contribution] at hprovided
  by_contra hnot
  rw [if_neg hnot] at hprovided
  cases hprovided

namespace Extraction

/-! ## Turns of components -/

/-- **A component has its turn** in a pass over components: it is resolved with all its references,
unless its name is taken or it was resolved before, through a reference. -/
theorem resolves_of_extractComponents {context : Context} {state final : ExtractionState}
    {earlier later : List (String × Node)} {id : String} {node : Node}
    (hrun : extractComponents context (earlier ++ (id, node) :: later) state = .ok () final)
    (hend : final.resolver.cancelled = false) :
    ∃ before, extractComponents context earlier state = .ok () before ∧
      (before.resolver.repository.contains id = true ∨ before.resolver.memo.contains id = true ∨
        Resolves context [id] id node final.resolver) := by
  rw [extractComponents_eq] at hrun
  obtain ⟨before, answer, after, hbefore, -, hturn, hafter⟩ := exists_turn hrun hend
  rw [← extractComponents_eq] at hbefore hafter
  refine ⟨before, hbefore, ?_⟩
  obtain ⟨resolver, hcomponent, rfl⟩ := ofResolver_ok hturn
  rcases resolveComponent_ok hcomponent with
    ⟨hknown, -, -⟩ | ⟨resolution, s, -, hmemo, -, hrun, rfl⟩
  · exact hknown.elim .inl fun h => .inr (.inl h)
  · have hnew : before.resolver.memo.find? id = none := by
      simpa [OrderedMap.contains] using hmemo
    have hunfinished := hrun.memo_active List.mem_cons_self hnew
    have hkept : s.Grows final.resolver := .trans (.memoise (.refl s) hunfinished)
      (grows_extractComponents hafter).1.resolver
    have hruns : Frame.RunsUpTo context ⟨[id], .atNode node id false, before.resolver⟩
        final.resolver := ⟨_, _, hrun, hkept⟩
    exact .inr (.inr ⟨before.resolver, hruns, hruns.deals hend⟩)

end Extraction

end ApiCatalog
