import ApiCatalog.Proofs.Resolution.Answers
import ApiCatalog.Proofs.Resolution.Calls

set_option autoImplicit false

/-!
# Progress of the schema walk

Since there is an end to calls, a stage of the walk either answers or comes to a reference that
cannot be carried on, and in the latter case the extraction ends there.

## Main definitions

* `ApiCatalog.Breaks`: a frame cannot be carried on.
* `Frame.Answers`, `Frame.Halts`, `Frame.Aborts`: what comes of a frame.

## Main results

* `ApiCatalog.settled`: a frame answers, or its calls come to one that cannot be carried on.
* `ApiCatalog.exists_breaks_of_step_eq_error`, `ApiCatalog.aborts_iff_halts`: a frame ends the
  extraction just if its calls come to such a frame, in whose state it ends.
-/

namespace ApiCatalog

/-! ## Frames that cannot be carried on -/

/-- A frame cannot be carried on: the reference that it is at, or a member of the union that it is
at, is neither dereferenced nor refused. -/
inductive Breaks (context : Context) : Frame → Abort → Prop
  /-- It cannot be told which component the reference names. -/
  | nameless {active target hint nullable state abort} :
      state.cancelled = false →
      componentName target = .error abort →
      Breaks context ⟨active, .atNode (.reference target) hint nullable, state⟩ abort
  /-- The component that the reference names cannot be looked up. -/
  | astray {active target hint nullable id state abort} :
      state.cancelled = false →
      componentName target = .ok (some id) →
      state.memo.find? id = none →
      id ∉ active →
      context.document.findSchema target = .error abort →
      Breaks context ⟨active, .atNode (.reference target) hint nullable, state⟩ abort
  /-- It cannot be told whether the union admits null. -/
  | union {active schema hint nullable kind members state abort} :
      schema.composition? = some (kind, members) →
      offersNull context.document kind members = .error abort →
      Breaks context ⟨active, .atSchema schema hint nullable, state⟩ abort

/-! ## Answers and failures -/

/-- A frame answers. -/
def Frame.Answers (context : Context) (frame : Frame) : Prop :=
  ∃ answer state', Runs context frame.active frame.stage frame.state answer state'

/-- The calls of a frame come to one that cannot be carried on. -/
def Frame.Halts (context : Context) (frame : Frame) (abort : Abort) : Prop :=
  ∃ last, Relation.ReflTransGen (Calls context) frame last ∧ Breaks context last abort

/-- A frame answers, or its calls come to one that cannot be carried on. -/
def Frame.Settled (context : Context) (frame : Frame) : Prop :=
  frame.Answers context ∨ ∃ abort, frame.Halts context abort

section Settled

variable {context : Context} {caller callee : Frame}

/-- A frame that cannot be carried on halts. -/
theorem Breaks.halts {frame : Frame} {abort : Abort} (h : Breaks context frame abort) :
    frame.Halts context abort :=
  ⟨frame, .refl, h⟩

/-- A frame halts if one that it calls does. -/
theorem Frame.Halts.of_call {abort : Abort} (h : callee.Halts context abort)
    (hcall : Calls context caller callee) : caller.Halts context abort := by
  obtain ⟨last, hlast, hbreaks⟩ := h
  exact ⟨last, .head hcall hlast, hbreaks⟩

/-- A frame is settled if one that it calls is, and if it is settled once that one has answered. -/
theorem Frame.Settled.of_call (h : callee.Settled context) (hcall : Calls context caller callee)
    (hnext : ∀ answer state', Runs context callee.active callee.stage callee.state answer state' →
      caller.Settled context) : caller.Settled context := by
  rcases h with ⟨answer, state', hrun⟩ | ⟨abort, hhalts⟩
  · exact hnext answer state' hrun
  · exact .inr ⟨abort, hhalts.of_call hcall⟩

end Settled

section Progress

variable {context : Context} {active : List ModelName} {state : ResolverState}

/-- Whatever a frame calls is settled. -/
def Frame.CalleesSettled (context : Context) (frame : Frame) : Prop :=
  ∀ callee, Calls context frame callee → callee.Settled context

/-- A reference is settled if the component that it may enter is. -/
theorem settled_reference {target : String} {hint : ModelName} {nullable : Bool}
    (hcancelled : state.cancelled = false)
    (ih : Frame.CalleesSettled context ⟨active, .atNode (.reference target) hint nullable, state⟩) :
    Frame.Settled context ⟨active, .atNode (.reference target) hint nullable, state⟩ := by
  cases hname : componentName target with
  | error abort => exact .inr ⟨abort, (Breaks.nameless hcancelled hname).halts⟩
  | ok named =>
    cases named with
    | none => exact .inl ⟨_, _, .refused hcancelled hname⟩
    | some id =>
      cases hmemo : state.memo.find? id with
      | some resolution => exact .inl ⟨_, _, .finished hcancelled hname hmemo⟩
      | none =>
        by_cases hactive : id ∈ active
        · exact .inl ⟨_, _, .busy hcancelled hname hmemo hactive⟩
        · cases hfound : context.document.findSchema target with
          | error abort =>
            exact .inr ⟨abort, (Breaks.astray hcancelled hname hmemo hactive hfound).halts⟩
          | ok found =>
            cases found with
            | error error => exact .inl ⟨_, _, .missing hcancelled hname hmemo hactive hfound⟩
            | ok schema =>
              have hcall : Enters context id
                  ⟨active, .atNode (.reference target) hint nullable, state⟩
                  ⟨id :: active, .atSchema schema id false, state⟩ :=
                .enter hcancelled hname hmemo hactive hfound
              refine (ih _ (.inr ⟨id, hcall⟩)).of_call (.inr ⟨id, hcall⟩) ?_
              intro answer state' hrun
              exact .inl ⟨_, _, .entered hcancelled hname hmemo hactive hfound hrun⟩

/-- A schema is settled if what it is made of is. -/
theorem settled_schema {schema : Schema} {hint : ModelName} {nullable : Bool}
    (ih : Frame.CalleesSettled context ⟨active, .atSchema schema hint nullable, state⟩) :
    Frame.Settled context ⟨active, .atSchema schema hint nullable, state⟩ := by
  cases hshape : schema.composition? with
  | some composition =>
    obtain ⟨kind, members⟩ := composition
    cases hoffered : offersNull context.document kind members with
    | error abort => exact .inr ⟨abort, (Breaks.union hshape hoffered).halts⟩
    | ok offered =>
      refine (ih _ (.inl (.members hshape hoffered))).of_call (.inl (.members hshape hoffered)) ?_
      intro answer state' hrun
      cases answer with
      | none => exact .inl ⟨_, _, .abandoned hshape hoffered hrun⟩
      | some result => exact .inl ⟨_, _, .composed hshape hoffered hrun⟩
  | none =>
    cases htypes : schema.types.isEmpty with
    | true => exact .inl ⟨_, _, .untyped hshape htypes⟩
    | false =>
      refine (ih _ (.inl (.object hshape htypes))).of_call (.inl (.object hshape htypes)) ?_
      intro objectDone state₁ hobject
      refine (ih _ (.inl (.array hshape htypes hobject))).of_call
        (.inl (.array hshape htypes hobject)) ?_
      intro arrayDone state₂ harray
      exact .inl ⟨_, _, .typed hshape htypes hobject harray⟩

/-- Members are settled if each of them is. -/
theorem settled_members {offered : Bool} {members : List Node} {hint : ModelName} {index : Nat}
    {result : MemberResult}
    (ih : Frame.CalleesSettled context
      ⟨active, .atMembers offered members hint index result, state⟩) :
    Frame.Settled context ⟨active, .atMembers offered members hint index result, state⟩ := by
  cases members with
  | nil => exact .inl ⟨_, _, .allMembers⟩
  | cons member rest =>
    cases hcancelled : state.cancelled with
    | true => exact .inl ⟨_, _, .membersLeft hcancelled⟩
    | false =>
      refine (ih _ (.inl (.member hcancelled))).of_call (.inl (.member hcancelled)) ?_
      intro resolution state₁ hfirst
      refine (ih _ (.inl (.otherMembers hcancelled hfirst))).of_call
        (.inl (.otherMembers hcancelled hfirst)) ?_
      intro answer state₂ hrest
      exact .inl ⟨_, _, .nextMember hcancelled hfirst hrest⟩

/-- Properties are settled if each of them is. -/
theorem settled_properties {required : List String} {properties : List (String × Node)}
    {hint : ModelName} {result : PropertyResult}
    (ih : Frame.CalleesSettled context ⟨active, .atProperties required properties hint result,
      state⟩) :
    Frame.Settled context ⟨active, .atProperties required properties hint result, state⟩ := by
  cases properties with
  | nil => exact .inl ⟨_, _, .allProperties⟩
  | cons property rest =>
    obtain ⟨name, node⟩ := property
    refine (ih _ (.inl .property)).of_call (.inl .property) ?_
    intro resolution state₁ hfirst
    refine (ih _ (.inl (.otherProperties hfirst))).of_call (.inl (.otherProperties hfirst)) ?_
    intro answer state₂ hrest
    exact .inl ⟨_, _, .nextProperty hfirst hrest⟩

/-- The object of a schema is settled if its properties are. -/
theorem settled_object {schema : Schema} {hint : ModelName}
    (ih : Frame.CalleesSettled context ⟨active, .atObject schema hint, state⟩) :
    Frame.Settled context ⟨active, .atObject schema hint, state⟩ := by
  cases hcalled : schema.types.contains .object with
  | false => exact .inl ⟨_, _, .noObject hcalled⟩
  | true =>
    cases hknown : state.repository.contains hint with
    | true => exact .inl ⟨_, _, .knownObject hcalled hknown⟩
    | false =>
      refine (ih _ (.inl (.properties hcalled hknown))).of_call
        (.inl (.properties hcalled hknown)) ?_
      intro result state' hrun
      cases hcancelled : state'.cancelled with
      | true => exact .inl ⟨_, _, .lostObject hcalled hknown hrun hcancelled⟩
      | false => exact .inl ⟨_, _, .object hcalled hknown hrun hcancelled⟩

/-- The array of a schema is settled if its items are. -/
theorem settled_array {schema : Schema} {hint : ModelName}
    (ih : Frame.CalleesSettled context ⟨active, .atArray schema hint, state⟩) :
    Frame.Settled context ⟨active, .atArray schema hint, state⟩ := by
  cases hcalled : schema.types.contains .array with
  | false => exact .inl ⟨_, _, .noArray hcalled⟩
  | true =>
    cases hknown : state.repository.contains hint with
    | true => exact .inl ⟨_, _, .knownArray hcalled hknown⟩
    | false =>
      cases hitems : schema.items with
      | none => exact .inl ⟨_, _, .noItems hcalled hknown hitems⟩
      | some items =>
        cases items with
        | always allowed => exact .inl ⟨_, _, .anyItems hcalled hknown hitems⟩
        | each node =>
          refine (ih _ (.inl (.items hcalled hknown hitems))).of_call
            (.inl (.items hcalled hknown hitems)) ?_
          intro resolution state' hrun
          cases hsucceeded : resolution.succeeded with
          | true => exact .inl ⟨_, _, .array hcalled hknown hitems hrun hsucceeded⟩
          | false => exact .inl ⟨_, _, .lostArray hcalled hknown hitems hrun hsucceeded⟩

/-- **A frame answers, or comes to one that cannot be carried on.**

**Proof sketch.** Well-founded induction along the calls. What a stage calls is settled; if all of
it has answered, one of the rules for runs of the stage applies. -/
theorem settled (context : Context) (frame : Frame) : frame.Settled context := by
  induction frame using (wellFounded_calls context).induction with
  | _ frame ih =>
    obtain ⟨active, stage, state⟩ := frame
    cases stage with
    | atNode node hint nullable =>
      cases hcancelled : state.cancelled with
      | true => exact .inl ⟨_, _, .cancelled hcancelled⟩
      | false =>
        cases node with
        | reference target => exact settled_reference hcancelled ih
        | inline schema =>
          refine (ih _ (.inl (.inline hcancelled))).of_call (.inl (.inline hcancelled)) ?_
          intro answer state' hrun
          exact .inl ⟨_, _, .inline hcancelled hrun⟩
    | atSchema => exact settled_schema ih
    | atMembers => exact settled_members ih
    | atProperties => exact settled_properties ih
    | atObject => exact settled_object ih
    | atArray => exact settled_array ih

end Progress

/-! ## What cannot be carried on ends the extraction -/

namespace Resolver

variable {α β : Type} {state state' : ResolverState}

/-- A step goes on from what the step before has answered. -/
theorem bind_apply_of_ok {x : Resolver α} {f : α → Resolver β} {a : α}
    (h : x state = .ok a state') : (x >>= f) state = f a state' := by
  show EStateM.bind x f state = _
  rw [EStateM.bind, h]

/-- Nothing follows an abort. -/
theorem bind_apply_of_error {x : Resolver α} {f : α → Resolver β} {abort : Abort}
    (h : x state = .error abort state') : (x >>= f) state = .error abort state' := by
  show EStateM.bind x f state = _
  rw [EStateM.bind, h]

/-- A step followed by another ends the extraction if either does. -/
theorem bind_eq_error_iff {x : Resolver α} {f : α → Resolver β} {abort : Abort} :
    (x >>= f) state = .error abort state' ↔ x state = .error abort state' ∨
      ∃ a s, x state = .ok a s ∧ f a s = .error abort state' := by
  show EStateM.bind x f state = _ ↔ _
  unfold EStateM.bind
  cases x state <;> simp [and_assoc]

/-- A guarded step is taken until the extraction is cancelled. -/
theorem unlessCancelled_apply (step : Resolver Resolution) (h : state.cancelled = false) :
    unlessCancelled step state = step state := by
  rw [unlessCancelled, bind_apply_of_ok isCancelled_apply, h]
  rfl

end Resolver

/-- A model that is called for is registered under a free name. -/
theorem registerOnce_apply_of_free {called : Bool} {name : ModelName} (step : Resolver Bool)
    {state : ResolverState} (hcalled : called = true)
    (hfree : state.repository.contains name = false) :
    registerOnce called name step state = step state := by
  rw [registerOnce, if_pos hcalled, Resolver.bind_apply_of_ok (Resolver.isKnown_apply name), hfree]
  rfl

/-- A reference to a component that is neither finished nor active is looked up. -/
theorem followReference_apply_of_new {context : Context} {active : List ModelName}
    {target : String} {hint id : ModelName} {state : ResolverState}
    (hname : componentName target = .ok (some id)) (hmemo : state.memo.find? id = none)
    (hactive : id ∉ active) :
    followReference context active target hint state =
      (match context.document.findSchema target with
        | .error abort => (throw abort : Resolver Resolution)
        | .ok (.error error) => refuseReference target hint error.message
        | .ok (.ok schema) => do
          let resolution ← resolveSchema context (followReference context (id :: active)) schema
            id false
          Resolver.memoise id resolution
          return resolution) state := by
  rw [followReference_of_some _ _ _ _ hname,
    Resolver.bind_apply_of_ok (Resolver.finished?_apply id), hmemo]
  exact congrFun (if_neg hactive) state

/-- The step that a frame takes. -/
def Frame.step (context : Context) (frame : Frame) : Resolver frame.kind.Answer :=
  frame.stage.step context (followReference context frame.active)

section Failure

variable {context : Context} {caller callee frame : Frame} {abort : Abort}

/-- A frame aborts. -/
def Frame.Aborts (context : Context) (frame : Frame) (abort : Abort) : Prop :=
  ∃ state', frame.step context frame.state = .error abort state'

/-- A frame that cannot be carried on ends the extraction, and leaves the state as it is. -/
theorem Breaks.step_eq_error (h : Breaks context frame abort) :
    frame.step context frame.state = .error abort frame.state := by
  cases h with
  | @nameless active target hint nullable state _ hcancelled hname =>
    show resolveNode context _ _ _ _ _ = _
    rw [resolveNode, Resolver.unlessCancelled_apply _ hcancelled,
      followReference_of_error _ _ _ _ hname]
    rfl
  | @astray active target hint nullable id state _ hcancelled hname hmemo hactive hfound =>
    show resolveNode context _ _ _ _ _ = _
    rw [resolveNode, Resolver.unlessCancelled_apply _ hcancelled,
      followReference_apply_of_new hname hmemo hactive, hfound]
    rfl
  | @union active schema hint nullable kind members state _ hshape hoffered =>
    show resolveSchema context _ _ _ _ _ = _
    rw [resolveSchema_of_composition _ _ hshape, hoffered]
    rfl

/-- A frame ends the extraction as one does that it descends to. -/
theorem Descends.step_eq_error {state' : ResolverState} (hcall : Descends context caller callee)
    (h : callee.step context callee.state = .error abort state') :
    caller.step context caller.state = .error abort state' := by
  cases hcall with
  | inline hcancelled =>
    show resolveNode context _ _ _ _ _ = _
    rw [resolveNode, Resolver.unlessCancelled_apply _ hcancelled]
    exact h
  | members hshape hoffered =>
    show resolveSchema context _ _ _ _ _ = _
    rw [resolveSchema_of_composition _ _ hshape,
      Resolver.bind_apply_of_ok (Resolver.ofExcept_eq_ok_iff.2 ⟨hoffered, rfl⟩)]
    exact Resolver.bind_apply_of_error h
  | object hshape htypes =>
    show resolveSchema context _ _ _ _ _ = _
    rw [resolveSchema_of_types _ _ hshape htypes,
      Resolver.bind_apply_of_ok (registerPrimitives_apply _ _ _),
      Resolver.bind_apply_of_ok (registerEnumeration_apply _ _ _ _ _)]
    rw [ResolverState.registerAll, Schema.flatModels, List.foldl_append] at h
    exact Resolver.bind_apply_of_error h
  | array hshape htypes hobject =>
    show resolveSchema context _ _ _ _ _ = _
    rw [resolveSchema_of_types _ _ hshape htypes,
      Resolver.bind_apply_of_ok (registerPrimitives_apply _ _ _),
      Resolver.bind_apply_of_ok (registerEnumeration_apply _ _ _ _ _)]
    have hobject := hobject.step_eq_ok
    rw [ResolverState.registerAll, Schema.flatModels, List.foldl_append] at hobject
    exact (Resolver.bind_apply_of_ok hobject).trans (Resolver.bind_apply_of_error h)
  | member hcancelled =>
    show resolveMembers context _ _ _ _ _ _ _ = _
    rw [resolveMembers, Resolver.bind_apply_of_ok Resolver.isCancelled_apply, hcancelled]
    exact Resolver.bind_apply_of_error h
  | otherMembers hcancelled hfirst =>
    show resolveMembers context _ _ _ _ _ _ _ = _
    rw [resolveMembers, Resolver.bind_apply_of_ok Resolver.isCancelled_apply, hcancelled]
    exact (Resolver.bind_apply_of_ok hfirst.step_eq_ok).trans h
  | property =>
    show resolveProperties context _ _ _ _ _ _ = _
    rw [resolveProperties]
    exact Resolver.bind_apply_of_error h
  | otherProperties hfirst =>
    show resolveProperties context _ _ _ _ _ _ = _
    rw [resolveProperties]
    exact (Resolver.bind_apply_of_ok hfirst.step_eq_ok).trans h
  | properties hcalled hknown =>
    refine (registerOnce_apply_of_free _ hcalled hknown).trans ?_
    exact Resolver.bind_apply_of_error h
  | items hcalled hknown hitems =>
    refine (registerOnce_apply_of_free _ hcalled hknown).trans ?_
    rw [hitems, resolveItems]
    exact Resolver.bind_apply_of_error h

/-- A frame ends the extraction as the component does that it enters. -/
theorem Enters.step_eq_error {id : String} {state' : ResolverState}
    (hcall : Enters context id caller callee)
    (h : callee.step context callee.state = .error abort state') :
    caller.step context caller.state = .error abort state' := by
  cases hcall with
  | enter hcancelled hname hmemo hactive hfound =>
    show resolveNode context _ _ _ _ _ = _
    rw [resolveNode, Resolver.unlessCancelled_apply _ hcancelled,
      followReference_apply_of_new hname hmemo hactive, hfound]
    exact Resolver.bind_apply_of_error h

/-- A frame ends the extraction as those do that its calls come to. -/
theorem step_eq_error_of_calls {last : Frame}
    (hcalls : Relation.ReflTransGen (Calls context) frame last) (h : Breaks context last abort) :
    frame.step context frame.state = .error abort last.state := by
  induction hcalls using Relation.ReflTransGen.head_induction_on with
  | refl => exact h.step_eq_error
  | head hcall _ ih =>
    rcases hcall with hcall | ⟨id, hcall⟩
    · exact hcall.step_eq_error ih
    · exact hcall.step_eq_error ih

/-- **What an abort goes back to.** The calls of a frame that aborts come to one that cannot be
carried on, and the state is left as it was found there.

**Proof sketch.** A frame that aborts does not answer, so its calls come to a frame that cannot be
carried on; and from there the abort goes up through all calls. -/
theorem exists_breaks_of_step_eq_error {state' : ResolverState}
    (h : frame.step context frame.state = .error abort state') :
    ∃ last, Relation.ReflTransGen (Calls context) frame last ∧ Breaks context last abort ∧
      state' = last.state := by
  rcases settled context frame with ⟨answer, state'', hrun⟩ | ⟨abort', last, hcalls, hbreaks⟩
  · have hok : frame.step context frame.state = .ok answer state'' := hrun.step_eq_ok
    rw [h] at hok
    cases hok
  · have hleft := step_eq_error_of_calls hcalls hbreaks
    rw [h] at hleft
    cases hleft
    exact ⟨last, hcalls, hbreaks, rfl⟩

/-- **A frame aborts just if its calls come to one that cannot be carried on.** -/
theorem aborts_iff_halts : frame.Aborts context abort ↔ frame.Halts context abort := by
  constructor
  · rintro ⟨state', h⟩
    obtain ⟨last, hcalls, hbreaks, -⟩ := exists_breaks_of_step_eq_error h
    exact ⟨last, hcalls, hbreaks⟩
  · rintro ⟨last, hcalls, hbreaks⟩
    exact ⟨last.state, step_eq_error_of_calls hcalls hbreaks⟩

end Failure

end ApiCatalog
