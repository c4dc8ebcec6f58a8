import ApiCatalog.Proofs.Resolution.NameSpaces
import ApiCatalog.Proofs.Resolution.Nesting

set_option autoImplicit false

/-!
# Every moment of a resolver at work

A stage that ends the extraction has no answer, so no interrupted run tells what it passed through.
Here the states are followed that a stage comes to whether or not it will ever answer: those of the
parts that have answered, and in turn those that the part at hand has come to so far.

## Main definitions

* `ApiCatalog.OpenVisits`: a stage, begun in one state, comes to another.
* `Call.Visits`, `OpenState.Visits`: so does a call to a resolver, and a row of calls.

## Main results

* `ApiCatalog.visits_of_calls`: a stage comes to the states in which its calls begin.
* `OpenState.ComesTo.visits`: all that calls come to when they are answered is among this.
* `Request.visits_left`: so is the state that a request leaves, also if it ends the extraction.
-/

namespace ApiCatalog

/-! ## Stages -/

/-- A stage, begun in one state, comes to another one, whether or not it will ever answer. The
extraction may be cancelled from outside at any time. -/
inductive OpenVisits (context : Context) : {kind : StageKind} →
    Stage kind → OpenState → OpenState → Prop where
  /-- The stage begins. -/
  | start {kind : StageKind} {stage : Stage kind} {begun} : OpenVisits context stage begun begun
  /-- The stage answers. -/
  | answers {kind : StageKind} {stage : Stage kind} {begun answer trail ended moment} :
      OpenRuns context stage begun answer trail ended →
      moment ∈ trail ++ [ended] →
      OpenVisits context stage begun moment
  /-- The extraction is cancelled before the stage. -/
  | cancel {kind : StageKind} {stage : Stage kind} {begun moment} :
      OpenVisits context stage begun.cancel moment →
      OpenVisits context stage begun moment
  /-- At the schema that is written in place of a node. -/
  | inline {schema hint nullable begun moment} :
      begun.resolver.cancelled = false →
      OpenVisits context (.atSchema schema hint nullable) begun moment →
      OpenVisits context (.atNode (.inline schema) hint nullable) begun moment
  /-- In the component that a reference names. -/
  | entered {target hint nullable id schema begun moment} :
      begun.resolver.cancelled = false →
      componentName target = .ok (some id) →
      begun.resolver.memo.find? id = none →
      id ∉ begun.inProgress →
      context.document.findSchema target = .ok (.ok schema) →
      OpenVisits context (.atSchema schema id false) (begun.enter id) moment →
      OpenVisits context (.atNode (.reference target) hint nullable) begun moment
  /-- At the members of a composition. -/
  | members {schema hint nullable kind members offered begun moment} :
      schema.composition? = some (kind, members) →
      offersNull context.document kind members = .ok offered →
      OpenVisits context (.atMembers offered members hint 0 {}) begun moment →
      OpenVisits context (.atSchema schema hint nullable) begun moment
  /-- At the models that a schema with types calls for at once. -/
  | models {schema hint nullable begun moment} :
      schema.composition? = none →
      schema.types.isEmpty = false →
      moment ∈ begun.registrations context.cancelAt (schema.flatModels hint nullable) →
      OpenVisits context (.atSchema schema hint nullable) begun moment
  /-- At the object of a schema with types. -/
  | object {schema hint nullable begun moment} :
      schema.composition? = none →
      schema.types.isEmpty = false →
      OpenVisits context (.atObject schema hint)
        (begun.registerAll context.cancelAt (schema.flatModels hint nullable)) moment →
      OpenVisits context (.atSchema schema hint nullable) begun moment
  /-- At the array of a schema with types, after its object. -/
  | array {schema hint nullable begun objectDone trail middle moment} :
      schema.composition? = none →
      schema.types.isEmpty = false →
      OpenRuns context (.atObject schema hint)
        (begun.registerAll context.cancelAt (schema.flatModels hint nullable)) objectDone trail
        middle →
      OpenVisits context (.atArray schema hint) middle moment →
      OpenVisits context (.atSchema schema hint nullable) begun moment
  /-- At the first member that is left. -/
  | member {offered member rest hint index result begun moment} :
      begun.resolver.cancelled = false →
      OpenVisits context
        (.atNode member (Naming.member hint index) (offered && member.isSingleNonNull)) begun
        moment →
      OpenVisits context (.atMembers offered (member :: rest) hint index result) begun moment
  /-- At the members after the first. -/
  | otherMembers {offered member rest hint index result begun resolution trail middle moment} :
      begun.resolver.cancelled = false →
      OpenRuns context
        (.atNode member (Naming.member hint index) (offered && member.isSingleNonNull)) begun
        resolution trail middle →
      OpenVisits context (.atMembers offered rest hint (index + 1) (result.add resolution)) middle
        moment →
      OpenVisits context (.atMembers offered (member :: rest) hint index result) begun moment
  /-- At the first property that is left. -/
  | property {required name node rest hint result begun moment} :
      OpenVisits context (.atNode node (Naming.property hint name) false) begun moment →
      OpenVisits context (.atProperties required ((name, node) :: rest) hint result) begun moment
  /-- At the properties after the first. -/
  | otherProperties {required name node rest hint result begun resolution trail middle moment} :
      OpenRuns context (.atNode node (Naming.property hint name) false) begun resolution trail
        middle →
      OpenVisits context
        (.atProperties required rest hint (result.add required name resolution)) middle moment →
      OpenVisits context (.atProperties required ((name, node) :: rest) hint result) begun moment
  /-- At the properties of an object. -/
  | properties {schema hint begun moment} :
      schema.types.contains .object = true →
      begun.resolver.repository.contains hint = false →
      OpenVisits context (.atProperties schema.required schema.properties hint {}) begun moment →
      OpenVisits context (.atObject schema hint) begun moment
  /-- At the items of an array. -/
  | items {schema hint node begun moment} :
      schema.types.contains .array = true →
      begun.resolver.repository.contains hint = false →
      schema.items = some (.each node) →
      OpenVisits context (.atNode node (Naming.arrayItem hint) false) begun moment →
      OpenVisits context (.atArray schema hint) begun moment

section Calls

variable {context : Context} {frame caller callee last : Frame}

/-- The state in which a frame begins, with the components that are active. -/
def Frame.opened (frame : Frame) : OpenState :=
  ⟨frame.state, frame.active.toFinset⟩

/-- A frame comes to what one comes to that it descends to. -/
theorem Descends.visits {moment : OpenState} (hcall : Descends context caller callee)
    (h : OpenVisits context callee.stage callee.opened moment) :
    OpenVisits context caller.stage caller.opened moment := by
  cases hcall with
  | inline hlive => exact .inline hlive h
  | members hshape hoffered => exact .members hshape hoffered h
  | object hshape htypes => exact .object hshape htypes h
  | array hshape htypes hobject =>
    obtain ⟨trail, hobject⟩ := hobject.opens
    exact .array hshape htypes hobject h
  | member hlive => exact .member hlive h
  | otherMembers hlive hfirst =>
    obtain ⟨trail, hfirst⟩ := hfirst.opens
    exact .otherMembers hlive hfirst h
  | property => exact .property h
  | otherProperties hfirst =>
    obtain ⟨trail, hfirst⟩ := hfirst.opens
    exact .otherProperties hfirst h
  | properties hcalled hfree => exact .properties hcalled hfree h
  | items hcalled hfree hitems => exact .items hcalled hfree hitems h

/-- A frame comes to what the component comes to that it enters. -/
theorem Enters.visits {id : String} {moment : OpenState} (hcall : Enters context id caller callee)
    (h : OpenVisits context callee.stage callee.opened moment) :
    OpenVisits context caller.stage caller.opened moment := by
  cases hcall with
  | @enter active _ _ _ _ state hlive hname hnew hfresh hfound =>
    refine .entered hlive hname hnew (fun hid => hfresh (List.mem_toFinset.1 hid)) hfound ?_
    show OpenVisits context _ ⟨state, insert id active.toFinset⟩ moment
    rw [← List.toFinset_cons]
    exact h

/-- **A frame comes to the states in which its calls begin.** -/
theorem visits_of_calls (hcalls : Relation.ReflTransGen (Calls context) frame last) :
    OpenVisits context frame.stage frame.opened last.opened := by
  induction hcalls using Relation.ReflTransGen.head_induction_on with
  | refl => exact .start
  | head hcall _ ih =>
    rcases hcall with hcall | ⟨id, hcall⟩
    · exact hcall.visits ih
    · exact hcall.visits ih

/-- A frame that ends the extraction comes to a state of the resolver that it leaves. -/
theorem Frame.visits_of_step_eq_error {abort : Abort} {state' : ResolverState}
    (h : frame.step context frame.state = .error abort state') :
    ∃ inProgress, OpenVisits context frame.stage frame.opened ⟨state', inProgress⟩ := by
  obtain ⟨last, hcalls, -, rfl⟩ := exists_breaks_of_step_eq_error h
  exact ⟨last.active.toFinset, visits_of_calls hcalls⟩

end Calls

/-! ## Calls to a resolver -/

/-- A call to a resolver, begun in one state, comes to another one, whether or not it will ever be
answered. -/
inductive Call.Visits (context : Context) : Call → OpenState → OpenState → Prop where
  /-- The call is answered. -/
  | answers {call answer begun trail ended moment} :
      call.Performs context begun answer trail ended →
      moment ∈ trail ++ [ended] →
      Visits context call begun moment
  /-- A schema is resolved. -/
  | schema {node hint begun moment} :
      OpenVisits context (.atNode node hint false) begun moment →
      Visits context (.request (.schema node hint)) begun moment
  /-- A component is resolved while it is in progress. -/
  | component {id node begun moment} :
      begun.resolver.repository.contains id = false →
      begun.resolver.memo.contains id = false →
      OpenVisits context (.atNode node id false) (begun.enter id) moment →
      Visits context (.request (.component id node)) begun moment

/-- A state is come to after another: between two calls, or within one that may never be
answered. -/
def OpenState.Visits (context : Context) (begun moment : OpenState) : Prop :=
  ∃ middle, Relation.ReflTransGen (OpenState.Leads context) begun middle ∧
    (moment = middle ∨ ∃ call : Call, call.Visits context middle moment)

/-- What calls come to when they are answered is come to. -/
theorem OpenState.ComesTo.visits {context : Context} {begun moment : OpenState}
    (h : begun.ComesTo context moment) : begun.Visits context moment := by
  obtain ⟨middle, hcalls, rfl | ⟨call, answer, trail, ended, hcall, hmem⟩⟩ := h
  · exact ⟨_, hcalls, .inl rfl⟩
  · exact ⟨middle, hcalls, .inr ⟨call, .answers hcall (List.mem_append_left _ hmem)⟩⟩

/-- **A request comes to the state that it leaves**, whether it is answered or ends the
extraction.

**Proof sketch.** What is answered is a call that might have been interrupted. An abort goes back to
a frame that cannot be carried on, and leaves the state in which that frame begins. -/
theorem Request.visits_left (context : Context) (request : Request) (state : ResolverState) :
    ∃ inProgress, (Call.request request).Visits context ⟨state, ∅⟩
      ⟨(request.perform context).left state, inProgress⟩ := by
  rw [Resolver.left]
  split
  · next answer state' hperform =>
    obtain ⟨trail, hcall⟩ := Request.performs hperform
    exact ⟨∅, .answers hcall (List.mem_append_right _ List.mem_cons_self)⟩
  · next abort state' hperform =>
    cases request with
    | schema node hint =>
      rcases Resolver.bind_eq_error_iff.1 hperform with hresolve | ⟨resolution, s, -, hrest⟩
      · have hstep : Frame.step context ⟨[], .atNode node hint false, state⟩ state =
            .error abort state' := hresolve
        obtain ⟨inProgress, hvisits⟩ := Frame.visits_of_step_eq_error hstep
        exact ⟨inProgress, .schema hvisits⟩
      · cases hrest
    | component id node =>
      obtain ⟨hfree, hnew, hnode⟩ := resolveComponent_error hperform
      have hstep : Frame.step context ⟨[id], .atNode node id false, state⟩ state =
          .error abort state' := hnode
      obtain ⟨inProgress, hvisits⟩ := Frame.visits_of_step_eq_error hstep
      exact ⟨inProgress, .component hfree hnew hvisits⟩
    | record diagnostic => cases hperform

end ApiCatalog
