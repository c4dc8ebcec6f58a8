import ApiCatalog.Proofs.Extraction.Segments

set_option autoImplicit false

/-!
# Turns of operations

In a pass over the paths that is not cancelled, each operation that provides an endpoint has its
turn: when it is taken up, its node has no endpoint for the method yet.

## Main definitions

* `Extraction.OperationTurn`: an operation is taken up between two states of a pass.
* `Extraction.Awaits`: what is known when an operation is taken up.

## Main results

* `Extraction.exists_operationTurn`: the operation that provides an endpoint has its turn.
* `Extraction.OperationTurn.grows`: what comes after a turn lets the state and the index grow.
* `Extraction.takesUp_of_provides`: the operation that provides an endpoint is taken up.
-/

namespace ApiCatalog

namespace Extraction

/-- An operation is taken up between two states of a pass over the paths of a document: after the
paths before its own, the shared parameters, the template and the operations before it, and before
the other operations and paths. -/
inductive OperationTurn (context : Context) (origin passed : ExtractionState) (template : String)
    (item : PathItem) (method : HttpMethod) (operation : Operation) (shared : ParameterMap)
    (walked : WalkedPath) (before after : ExtractionState) : Prop
  | intro {earlierPaths laterPaths : List (String × PathItem)}
      {earlier later : List (HttpMethod × Operation)} {reached collected entered left :
        ExtractionState}
      (paths : context.document.pathEntries = earlierPaths ++ (template, item) :: laterPaths)
      (reaches : extractPaths context earlierPaths origin = .ok () reached)
      (collects : collectParameters context template 0 item.parameters ∅ reached =
        .ok shared collected)
      (walks : walkTemplate template collected = .ok (some walked) entered)
      (operations : item.operations = earlier ++ (method, operation) :: later)
      (precedes : extractOperations context template shared walked earlier entered = .ok () before)
      (turn : extractOperation context template shared walked method operation before =
        .ok () after)
      (succeeds : extractOperations context template shared walked later after = .ok () left)
      (remains : extractPaths context laterPaths left = .ok () passed)

variable {document : Document} {cancelAt : Option Nat} {template : String} {item : PathItem}
  {method : HttpMethod} {operation : Operation} {shared : ParameterMap} {walked : WalkedPath}
  {state passed final before after : ExtractionState}

namespace OperationTurn

variable (h : OperationTurn ⟨document, cancelAt⟩ state passed template item method operation shared
  walked before after)

include h in
/-- The operation is one of the document. -/
theorem mem : (template, item) ∈ document.pathEntries ∧ (method, operation) ∈ item.operations := by
  cases h with
  | intro paths _ _ _ operations =>
    exact ⟨by simp [show document.pathEntries = _ from paths], by simp [operations]⟩

include h in
/-- What the operation asks for, its document asks for. -/
theorem requests_subset :
    document.operationRequests template method operation ⊆ document.requests :=
  List.Subset.trans (Document.operationRequests_subset h.mem.2)
    (Document.pathRequests_subset h.mem.1)

include h in
/-- **What comes after a turn** leads to later states, and lets the index grow. -/
theorem grows : after.Grows passed ∧ after.index.GrowsTo passed.index := by
  have hpath := h.mem.1
  cases h with
  | @intro earlierPaths laterPaths earlier later _ _ _ left paths _ _ _ operations _ _ succeeds
      remains =>
    have hlater : later ⊆ item.operations := fun _ h => by simp [operations, h]
    have hlaterPaths : laterPaths ⊆ document.pathEntries := fun _ h => by
      simp [show document.pathEntries = _ from paths, h]
    exact ⟨(grows_extractOperations hpath hlater succeeds).trans
      (grows_extractPaths hlaterPaths remains),
      (growsTo_extractOperations hpath hlater succeeds).trans
        (growsTo_extractPaths hlaterPaths remains)⟩

end OperationTurn

/-- What is known when an operation has its turn that becomes an endpoint: where its template leads,
what the path's parameters are, and that its node has no endpoint for the method. -/
structure Awaits (document : Document) (template : String) (item : PathItem) (method : HttpMethod)
    (shared : ParameterMap) (walked : WalkedPath) (state : ExtractionState) : Prop where
  proper : state.index.Proper
  follows : walked.Follows state.index (templateSegments template)
  informed : Informed document template item
    ((document.parameterRequests template item.parameters).map Prod.fst) shared state
  free : state.index.endpointAt walked.terminal method = none

/-- **The first operation of a path for a method has its turn**, before which the node of the path
gets no endpoint for the method. -/
theorem exists_turn_of_operation {entered left : ExtractionState}
    (hpath : (template, item) ∈ document.pathEntries)
    (hentered : Awaits document template item method shared walked entered)
    (hoperation : item.operation? method = some operation)
    (hrun : extractOperations ⟨document, cancelAt⟩ template shared walked item.operations entered =
      .ok () left) (hend : left.resolver.cancelled = false) :
    ∃ earlier later before after, item.operations = earlier ++ (method, operation) :: later ∧
      (∀ entry ∈ earlier, entry.1 ≠ method) ∧
      extractOperations ⟨document, cancelAt⟩ template shared walked earlier entered =
        .ok () before ∧
      extractOperation ⟨document, cancelAt⟩ template shared walked method operation before =
        .ok () after ∧
      extractOperations ⟨document, cancelAt⟩ template shared walked later after = .ok () left ∧
      Awaits document template item method shared walked before := by
  have hfind := item.find?_operations method
  rw [hoperation] at hfind
  obtain ⟨-, earlier, later, hsplit, hothers⟩ := List.find?_eq_some_iff_append.1 hfind
  have hearlier : earlier ⊆ item.operations := fun _ h => by simp [hsplit, h]
  rw [extractOperations_eq, hsplit] at hrun
  obtain ⟨before, _, after, hbefore, hactive, hturn, hafter⟩ := exists_turn hrun hend
  rw [← extractOperations_eq] at hbefore hafter
  have hnames : ∀ request ∈ document.parameterRequests template item.parameters,
      request.1 ∈ (document.parameterRequests template item.parameters).map Prod.fst :=
    fun request hrequest => List.mem_map_of_mem hrequest
  have hfilled := (extractOperations_yields (.any _) hpath hearlier hnames
    (PathIndex.lt_of_descend entered.index.root_lt hentered.follows.terminal)
    hentered.informed).answer hbefore
  have hnone : ∀ entry ∈ earlier, entry.1 ≠ method := fun entry hentry => by
    simpa using hothers entry hentry
  refine ⟨earlier, later, before, after, hsplit, hnone, hbefore, hturn, hafter,
    hfilled.outline.proper hentered.proper, hentered.follows.mono hfilled.outline.toExtends,
    fun hend => ?_, ?_⟩
  · have hstart := (grows_extractOperations hpath hearlier hbefore).not_cancelled hend
    obtain ⟨rfl, hcoherent⟩ := hentered.informed hstart
    exact ⟨rfl, coherent_extractOperations hpath hearlier hnames entered _ before
      (fun _ => hcoherent) hbefore hend⟩
  · have hfind : earlier.find? (fun entry => entry.1 = method) = none :=
      List.find?_eq_none.2 fun entry hentry => by simpa using hnone entry hentry
    rw [hfilled.endpointAt hactive, hentered.free, Document.offer, hfind, Option.map_none, ite_self,
      Option.or_none]

/-- **The operation that provides an endpoint has its turn** in a pass over the paths.

**Proof sketch.** When its path has its turn, no path before provides the node with an endpoint for
the method; nor does an operation of the same path before it. -/
theorem exists_operationTurn (h : document.Indexed [] state)
    (hrun : extractPaths ⟨document, cancelAt⟩ document.pathEntries state = .ok () passed)
    (hend : passed.resolver.cancelled = false) {id : Nat}
    (hprovides : document.Provides passed.index id method template item operation) :
    ∃ shared walked before after, OperationTurn ⟨document, cancelAt⟩ state passed template item
        method operation shared walked before after ∧
      walked.terminal = id ∧ Awaits document template item method shared walked before := by
  have hleads := hprovides.leads
  obtain ⟨hfirst, hoperation⟩ := hprovides
  obtain ⟨-, earlier, later, hsplit, hothers⟩ := List.find?_eq_some_iff_append.1 hfirst
  have hpath : (template, item) ∈ document.pathEntries := by simp [hsplit]
  obtain ⟨reached, left, hreached, hindexed, hactive, hturn, hgrows, hextends, hremains⟩ :=
    exists_turn_of_path hsplit h hrun hend
  obtain ⟨shared, collected, hshared, hrest⟩ := bind_eq_ok_iff.1 hturn
  obtain ⟨answer, entered, hwalk, hlast⟩ := bind_eq_ok_iff.1 hrest
  have hentered := entered_of_walk hpath hindexed.spans.proper hindexed.coherent hshared hwalk
  have hrequests := (List.append_subset.1 (Document.pathRequests_subset hpath)).1
  have hbuilds : reached.Builds collected :=
    ((building_builds (.any _) reached).collectParameters hrequests (fun _ _ => trivial) 0 ∅ reached
      (.refl reached)).answer hshared
  have harrives : Arrives template [] (templateSegments template) collected entered answer :=
    follows_walkSegments (hbuilds.outline.proper hindexed.spans.proper) (.start _) hwalk
  cases answer with
  | none => exact absurd hleads.1 (hentered.refused rfl).1
  | some walked =>
    obtain ⟨-, hfind, -, hinformed⟩ := hentered.accepted walked rfl
    have hfilled := (extractOperations_yields (.any _) hpath (List.Subset.refl _)
      (fun request hrequest => List.mem_map_of_mem hrequest)
      (PathIndex.lt_of_descend entered.index.root_lt hfind) hinformed).answer hlast
    have hkept : entered.index.Extends passed.index := hfilled.outline.toExtends.trans hextends
    have hid : walked.terminal = id :=
      Option.some.inj ((hkept.descend hfind).symm.trans hleads.2)
    have hfree : entered.index.endpointAt walked.terminal method = none := by
      rw [hentered.laid.endpointAt, hindexed.endpointAt hactive, List.findSome?_eq_none_iff, hid]
      intro entry hentry
      rw [← Document.contribution_of_extends (hentered.laid.toExtends.trans hkept)
        (hindexed.spans.found entry.1 (List.mem_map_of_mem hentry))]
      simpa using hothers entry hentry
    have hawaits : Awaits document template item method shared walked entered :=
      ⟨hentered.laid.proper, harrives.2.2, hinformed, hfree⟩
    obtain ⟨_, _, before, after, hoperations, -, hprecedes, htaken, hsucceeds, hawaits'⟩ :=
      exists_turn_of_operation hpath hawaits hoperation hlast (hgrows.not_cancelled hend)
    exact ⟨shared, walked, before, after, .intro hsplit hreached hshared hwalk hoperations hprecedes
      htaken hsucceeds hremains, hid, hawaits'⟩

/-- An operation is taken up before its endpoint is put at a node. -/
theorem ensures_insertBuilt (context : Context) (shared : ParameterMap) (walked : WalkedPath) :
    Ensures (do
        let endpoint ← buildEndpoint context template method operation shared walked
        match ← changeIndex fun index =>
            (index.insertEndpoint walked.terminal endpoint).map (((), ·)) with
        | .ok () => pure ()
        | .error error => recordIndexError template error)
      (TakesUp context template method operation) := by
  refine (ensures_buildEndpoint operation shared walked).before fun endpoint =>
    (Ensures.changeIndex _).after fun found => ?_
  cases found with
  | error error => exact .ofExceptBind fun _ _ => (Ensures.record _).mono fun _ _ => trivial
  | ok done => exact .pure fun _ => trivial

/-- An operation of a node that has no endpoint for its method is taken up. -/
theorem takesUp_of_extractOperation {state' : ExtractionState}
    (hfree : state.index.endpointAt walked.terminal method = none)
    (h : extractOperation ⟨document, cancelAt⟩ template shared walked method operation state =
      .ok () state') (hgrows : state'.Grows final) (hend : final.resolver.cancelled = false) :
    TakesUp ⟨document, cancelAt⟩ template method operation final.resolver := by
  obtain ⟨known, s, hknown, hrest⟩ := bind_eq_ok_iff.1 h
  cases hknown
  rw [PathIndex.endpointAt] at hfree
  rw [hfree] at hrest
  exact (ensures_insertBuilt _ shared walked).goal hrest final hgrows hend

/-- **The operation that provides an endpoint is taken up** in a pass over the paths. -/
theorem takesUp_of_provides (h : document.Indexed [] state)
    (hrun : extractPaths ⟨document, cancelAt⟩ document.pathEntries state = .ok () passed)
    (hlater : passed.Grows final) (hend : final.resolver.cancelled = false) {id : Nat}
    (hprovides : document.Provides passed.index id method template item operation) :
    TakesUp ⟨document, cancelAt⟩ template method operation final.resolver := by
  obtain ⟨shared, walked, before, after, hturn, -, hawaits⟩ :=
    exists_operationTurn h hrun (hlater.not_cancelled hend) hprovides
  have hgrows := hturn.grows.1.trans hlater
  cases hturn with
  | intro _ _ _ _ _ _ turn => exact takesUp_of_extractOperation hawaits.free turn hgrows hend

end Extraction

end ApiCatalog
