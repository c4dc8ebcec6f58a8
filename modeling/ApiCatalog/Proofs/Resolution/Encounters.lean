import ApiCatalog.Proofs.Resolution.Cancellation
import ApiCatalog.Proofs.Resolution.Nesting

set_option autoImplicit false

/-!
# References that a resolution comes to

The calls of a frame that answers answer themselves, and what they do is kept. So each reference
that a complete resolution comes to is taken up in one of two ways: it names a component that is
finished, is being resolved or is found, or it is reported and answered with a failure. A resolution
that does not answer is ended by a reference that stands in the document.

## Main definitions

* `Frame.RunsUpTo`: a frame answers, and what was done by then is kept in a later state.
* `Frame.Deals`: the references that a frame comes to are dereferenced or reported.
* `ApiCatalog.Resolves`: a node is resolved on the way to a state, with all its references.
* `Document.SchemaAborts`: a reference to a schema in a document ends what comes to it.

## Main results

* `ApiCatalog.runsUpTo_of_calls`: the calls of a frame that answers answer themselves.
* `Frame.RunsUpTo.deals`: what a complete resolution does with the references that it comes to.
* `Frame.Aborts.exposed`: what ends a resolution.
-/

namespace ApiCatalog

section Encounters

variable {context : Context} {caller callee frame last : Frame} {final : ResolverState}

/-! ## Calls of a frame that answers -/

/-- A stage ends in one way from each state. -/
theorem Runs.unique {kind : StageKind} {active : List ModelName} {stage : Stage kind}
    {state state₁ state₂ : ResolverState} {answer₁ answer₂ : kind.Answer}
    (h₁ : Runs context active stage state answer₁ state₁)
    (h₂ : Runs context active stage state answer₂ state₂) :
    answer₁ = answer₂ ∧ state₁ = state₂ := by
  have h := h₁.step_eq_ok.symm.trans h₂.step_eq_ok
  cases h
  exact ⟨rfl, rfl⟩

/-- A frame answers, and what was done by then is kept in a later state. -/
def Frame.RunsUpTo (context : Context) (frame : Frame) (final : ResolverState) : Prop :=
  ∃ answer after, Runs context frame.active frame.stage frame.state answer after ∧
    after.Grows final

/-- What a frame descends to answers before the frame does. -/
theorem Descends.runsUpTo (hcall : Descends context caller callee)
    (h : caller.RunsUpTo context final) : callee.RunsUpTo context final := by
  obtain ⟨answer, after, hrun, hgrows⟩ := h
  cases hcall with
  | inline hcancelled =>
    cases hrun with
    | cancelled h => cases hcancelled.symm.trans h
    | inline _ hschema => exact ⟨_, _, hschema, hgrows⟩
  | members hshape hoffered =>
    obtain ⟨_, _, _, hoffered', hmembers, hend⟩ := hrun.of_composition hshape
    cases hoffered.symm.trans hoffered'
    refine ⟨_, _, hmembers, ?_⟩
    rcases hend with ⟨-, -, rfl⟩ | ⟨_, -, -, rfl⟩
    · exact hgrows
    · exact .trans (.register _ _ _) hgrows
  | object hshape htypes =>
    obtain ⟨_, _, _, hobject, harray, -⟩ := hrun.of_types hshape htypes
    exact ⟨_, _, hobject, harray.grows.trans hgrows⟩
  | array hshape htypes hobject =>
    obtain ⟨_, _, _, hobject', harray, -⟩ := hrun.of_types hshape htypes
    obtain ⟨-, rfl⟩ := hobject.unique hobject'
    exact ⟨_, _, harray, hgrows⟩
  | member hcancelled =>
    cases hrun with
    | membersLeft h => cases hcancelled.symm.trans h
    | nextMember _ hfirst hrest => exact ⟨_, _, hfirst, hrest.grows.trans hgrows⟩
  | otherMembers hcancelled hfirst =>
    cases hrun with
    | membersLeft h => cases hcancelled.symm.trans h
    | nextMember _ hfirst' hrest =>
      obtain ⟨rfl, rfl⟩ := hfirst.unique hfirst'
      exact ⟨_, _, hrest, hgrows⟩
  | property =>
    cases hrun with
    | nextProperty hfirst hrest => exact ⟨_, _, hfirst, hrest.grows.trans hgrows⟩
  | otherProperties hfirst =>
    cases hrun with
    | nextProperty hfirst' hrest =>
      obtain ⟨rfl, rfl⟩ := hfirst.unique hfirst'
      exact ⟨_, _, hrest, hgrows⟩
  | properties hcalled hknown =>
    cases hrun with
    | noObject h => cases hcalled.symm.trans h
    | knownObject _ h => cases hknown.symm.trans h
    | lostObject _ _ hproperties => exact ⟨_, _, hproperties, hgrows⟩
    | object _ _ hproperties => exact ⟨_, _, hproperties, .trans (.register _ _ _) hgrows⟩
  | items hcalled hknown hitems =>
    cases hrun with
    | noArray h => cases hcalled.symm.trans h
    | knownArray _ h => cases hknown.symm.trans h
    | noItems _ _ h | anyItems _ _ h => cases hitems.symm.trans h
    | lostArray _ _ hitems' hnode =>
      cases hitems.symm.trans hitems'
      exact ⟨_, _, hnode, hgrows⟩
    | array _ _ hitems' hnode =>
      cases hitems.symm.trans hitems'
      exact ⟨_, _, hnode, .trans (.register _ _ _) hgrows⟩

/-- A component that a frame enters answers before the frame does. -/
theorem Enters.runsUpTo {id : String} (hcall : Enters context id caller callee)
    (h : caller.RunsUpTo context final) : callee.RunsUpTo context final := by
  obtain ⟨answer, after, hrun, hgrows⟩ := h
  cases hcall with
  | enter hcancelled hname hmemo hnew hfound =>
    cases hrun with
    | cancelled h => cases hcancelled.symm.trans h
    | refused _ hname' => cases hname.symm.trans hname'
    | finished _ hname' hmemo' =>
      cases hname.symm.trans hname'
      cases hmemo.symm.trans hmemo'
    | busy _ hname' _ hactive =>
      cases hname.symm.trans hname'
      exact absurd hactive hnew
    | missing _ _ _ _ hfound' => cases hfound.symm.trans hfound'
    | entered _ hname' _ _ hfound' hschema =>
      cases hname.symm.trans hname'
      cases hfound.symm.trans hfound'
      have hunfinished := hschema.memo_active List.mem_cons_self hmemo
      exact ⟨_, _, hschema, .trans (.memoise (.refl _) hunfinished) hgrows⟩

/-- **The calls of a frame that answers answer themselves**, and what they do is kept. -/
theorem runsUpTo_of_calls (hcalls : Relation.ReflTransGen (Calls context) frame last)
    (h : frame.RunsUpTo context final) : last.RunsUpTo context final := by
  induction hcalls with
  | refl => exact h
  | tail _ hcall ih =>
    rcases hcall with hcall | ⟨id, hcall⟩
    · exact hcall.runsUpTo ih
    · exact hcall.runsUpTo ih

/-! ## References of a complete resolution -/

/-- Every reference that a frame comes to is dereferenced or reported: it names a component that is
finished or is being resolved or is found, or else the answer is a failure, of which a later state
has the report. -/
def Frame.Deals (context : Context) (frame : Frame) (final : ResolverState) : Prop :=
  ∀ active target hint nullable state, Relation.ReflTransGen (Calls context) frame
      ⟨active, .atNode (.reference target) hint nullable, state⟩ →
    (∃ id, componentName target = .ok (some id) ∧
      ((∃ resolution, state.memo.find? id = some resolution) ∨ id ∈ active ∨
        ∃ schema, context.document.findSchema target = .ok (.ok schema))) ∨
    ∃ reason, .unresolvedReference hint target reason ∈ final.diagnostics ∧
      Runs context active (.atNode (.reference target) hint nullable) state .failed
        (state.record (.unresolvedReference hint target reason))

/-- **What a complete resolution does with the references that it comes to**: all of them are
dereferenced or reported.

**Proof sketch.** The frame at a reference answers by one of the rules for references. It was not
cancelled, since the last state was not. -/
theorem Frame.RunsUpTo.deals (h : frame.RunsUpTo context final)
    (hend : final.cancelled = false) : frame.Deals context final := by
  intro active target hint nullable state hcalls
  obtain ⟨answer, after, hrun, hgrows⟩ := runsUpTo_of_calls hcalls h
  cases hrun with
  | cancelled hcancelled =>
    rw [hgrows.cancelled hcancelled] at hend
    cases hend
  | refused hcancelled hname =>
    have hmem := hgrows.diagnostics.subset (List.mem_append_right _ List.mem_cons_self)
    exact .inr ⟨_, hmem, .refused hcancelled hname⟩
  | missing hcancelled hname hmemo hnew hfound =>
    have hmem := hgrows.diagnostics.subset (List.mem_append_right _ List.mem_cons_self)
    exact .inr ⟨_, hmem, .missing hcancelled hname hmemo hnew hfound⟩
  | finished _ hname hmemo => exact .inl ⟨_, hname, .inl ⟨_, hmemo⟩⟩
  | busy _ hname _ hactive => exact .inl ⟨_, hname, .inr (.inl hactive)⟩
  | entered _ hname _ _ hfound => exact .inl ⟨_, hname, .inr (.inr ⟨_, hfound⟩)⟩

/-- A node is resolved under a name on the way to a state, while the components `active` are being
resolved, and the references that this comes to are dereferenced or reported. -/
def Resolves (context : Context) (active : List ModelName) (name : ModelName) (node : Node)
    (final : ResolverState) : Prop :=
  ∃ before : ResolverState,
    Frame.RunsUpTo context ⟨active, .atNode node name false, before⟩ final ∧
    Frame.Deals context ⟨active, .atNode node name false, before⟩ final

/-! ## References that end a resolution -/

/-- What a stage is about occurs in the document if that which it was called for does. -/
theorem Descends.within (hcall : Descends context caller callee)
    (h : caller.stage.Within context.document) : callee.stage.Within context.document := by
  cases hcall with
  | inline | object | array => exact h
  | members hshape => exact fun member hmember => .member h hshape hmember
  | member => exact h _ List.mem_cons_self
  | otherMembers => exact fun member hmember => h member (List.mem_cons_of_mem _ hmember)
  | property => exact h _ List.mem_cons_self
  | otherProperties => exact fun entry hentry => h entry (List.mem_cons_of_mem _ hentry)
  | properties => exact fun entry hentry => .property h hentry
  | items _ _ hitems => exact .items h hitems

/-- A component that is entered occurs in the document. -/
theorem Enters.within {id : String} (hcall : Enters context id caller callee) :
    callee.stage.Within context.document := by
  cases hcall with
  | enter _ hname _ _ hfound => exact Document.contains_of_findSchema hname hfound

/-- What the calls of a frame are about occurs in the document if what it is about does. -/
theorem within_of_calls (hcalls : Relation.ReflTransGen (Calls context) frame last)
    (h : frame.stage.Within context.document) : last.stage.Within context.document := by
  induction hcalls with
  | refl => exact h
  | tail _ hcall ih =>
    rcases hcall with hcall | ⟨id, hcall⟩
    · exact hcall.within ih
    · exact hcall.within

/-- A reference to a schema that stands in a document ends a resolution that comes to it. -/
inductive Document.SchemaAborts (document : Document) : Abort → Prop
  /-- It cannot be told which component the reference names. -/
  | nameless {target : String} {abort : Abort} (hnode : document.Contains (.reference target))
      (hname : componentName target = .error abort) : SchemaAborts document abort
  /-- The component that the reference names cannot be looked up. -/
  | astray {target id : String} {abort : Abort} (hnode : document.Contains (.reference target))
      (hname : componentName target = .ok (some id))
      (hfound : document.findSchema target = .error abort) : SchemaAborts document abort
  /-- The reference is a member of a union, and cannot be looked up. -/
  | union {schema : Schema} {members : List Node} {target : String} {abort : Abort}
      (hschema : document.Contains (.inline schema))
      (hshape : schema.composition? = some (.anyOf, members))
      (hmember : .reference target ∈ members)
      (hfound : document.findSchema target = .error abort) : SchemaAborts document abort

/-- **What ends a resolution**: a reference that stands in the document. -/
theorem Frame.Aborts.exposed {abort : Abort} (h : frame.Aborts context abort)
    (hwithin : frame.stage.Within context.document) : context.document.SchemaAborts abort := by
  obtain ⟨last, hcalls, hbreaks⟩ := aborts_iff_halts.1 h
  have hlast := within_of_calls hcalls hwithin
  cases hbreaks with
  | nameless _ hname => exact .nameless hlast hname
  | astray _ hname _ _ hfound => exact .astray hlast hname hfound
  | union hshape hoffered =>
    obtain ⟨rfl, target, hmember, hfound⟩ := offersNull_error_cases hoffered
    exact .union hlast hshape hmember hfound

end Encounters

end ApiCatalog
