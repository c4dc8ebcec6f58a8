import ApiCatalog.Proofs.Resolution.Stages

set_option autoImplicit false

/-!
# Runs of the schema walk

What a resolution did, as a derivation: one rule for each way in which a stage of the walk can
end, and a reference is entered by the rule that puts its component among the active ones.
Properties of every resolution, through whatever references, are then proved by one induction on the
derivation.

## Main definitions

* `ApiCatalog.Runs`: a stage, begun in one state while certain components are active, answers and
  ends in another state.

## Main results

* `ApiCatalog.runs_of_ok`: what a stage answers, it answers by a run.
* `ApiCatalog.resolveComponent_ok`: what the resolution of a component comes down to.
* `Runs.of_composition`, `Runs.of_untyped`, `Runs.of_types`: how a schema was resolved, by its shape.
-/

namespace ApiCatalog

/-! ## Runs -/

/-- A stage, begun in one state while the components `active` are being resolved, answers and ends
in another state. -/
inductive Runs (context : Context) : {kind : StageKind} →
    List ModelName → Stage kind → ResolverState → kind.Answer → ResolverState → Prop where
  /-- Nothing is resolved any more. -/
  | cancelled {active node hint nullable state} :
      state.cancelled = true →
      Runs context active (.atNode node hint nullable) state .failed state
  /-- A schema that is written in place. -/
  | inline {active schema hint nullable state resolution state'} :
      state.cancelled = false →
      Runs context active (.atSchema schema hint nullable) state resolution state' →
      Runs context active (.atNode (.inline schema) hint nullable) state resolution state'
  /-- A reference that names no component of the document. -/
  | refused {active target hint nullable state} :
      state.cancelled = false →
      componentName target = .ok none →
      Runs context active (.atNode (.reference target) hint nullable) state .failed
        (state.record
          (.unresolvedReference hint target "not an internal component reference"))
  /-- A reference to a component that was resolved before. -/
  | finished {active target hint nullable id resolution state} :
      state.cancelled = false →
      componentName target = .ok (some id) →
      state.memo.find? id = some resolution →
      Runs context active (.atNode (.reference target) hint nullable) state resolution state
  /-- A reference back to a component that is being resolved. -/
  | busy {active target hint nullable id state} :
      state.cancelled = false →
      componentName target = .ok (some id) →
      state.memo.find? id = none →
      id ∈ active →
      Runs context active (.atNode (.reference target) hint nullable) state (.single id true) state
  /-- A reference that leads nowhere. -/
  | missing {active target hint nullable id error state} :
      state.cancelled = false →
      componentName target = .ok (some id) →
      state.memo.find? id = none →
      id ∉ active →
      context.document.findSchema target = .ok (.error error) →
      Runs context active (.atNode (.reference target) hint nullable) state .failed
        (state.record (.unresolvedReference hint target error.message))
  /-- A reference to a component that is resolved now. -/
  | entered {active target hint nullable id schema state resolution state'} :
      state.cancelled = false →
      componentName target = .ok (some id) →
      state.memo.find? id = none →
      id ∉ active →
      context.document.findSchema target = .ok (.ok schema) →
      Runs context (id :: active) (.atSchema schema id false) state resolution state' →
      Runs context active (.atNode (.reference target) hint nullable) state resolution
        (state'.memoise id resolution)
  /-- A composition whose members are all resolved. -/
  | composed {active schema hint nullable kind members offered state result state'} :
      schema.composition? = some (kind, members) →
      offersNull context.document kind members = .ok offered →
      Runs context active (.atMembers offered members hint 0 {}) state (some result) state' →
      Runs context active (.atSchema schema hint nullable) state (.single hint result.succeeded)
        (state'.register context.cancelAt (.composition hint kind result.references))
  /-- A composition whose members are not all resolved. -/
  | abandoned {active schema hint nullable kind members offered state state'} :
      schema.composition? = some (kind, members) →
      offersNull context.document kind members = .ok offered →
      Runs context active (.atMembers offered members hint 0 {}) state none state' →
      Runs context active (.atSchema schema hint nullable) state (.single hint false) state'
  /-- A schema that says nothing. -/
  | untyped {active schema hint nullable state} :
      schema.composition? = none →
      schema.types.isEmpty = true →
      Runs context active (.atSchema schema hint nullable) state .failed
        (state.record (.missingType hint))
  /-- A schema that is resolved by its types. -/
  | typed {active schema hint nullable state objectDone state₁ arrayDone state₂} :
      schema.composition? = none →
      schema.types.isEmpty = false →
      Runs context active (.atObject schema hint)
        (state.registerAll context.cancelAt (schema.flatModels hint nullable)) objectDone state₁ →
      Runs context active (.atArray schema hint) state₁ arrayDone state₂ →
      Runs context active (.atSchema schema hint nullable) state
        ⟨schema.references hint nullable, objectDone && arrayDone⟩ state₂
  /-- No member is left. -/
  | allMembers {active offered hint index result state} :
      Runs context active (.atMembers offered [] hint index result) state (some result) state
  /-- A member is left, but nothing is resolved any more. -/
  | membersLeft {active offered member rest hint index result state} :
      state.cancelled = true →
      Runs context active (.atMembers offered (member :: rest) hint index result) state none state
  /-- One member, then the others. -/
  | nextMember {active offered member rest hint index result state resolution state₁ answer
      state₂} :
      state.cancelled = false →
      Runs context active
        (.atNode member (Naming.member hint index) (offered && member.isSingleNonNull)) state
        resolution state₁ →
      Runs context active (.atMembers offered rest hint (index + 1) (result.add resolution)) state₁
        answer state₂ →
      Runs context active (.atMembers offered (member :: rest) hint index result) state answer
        state₂
  /-- No property is left. -/
  | allProperties {active required hint result state} :
      Runs context active (.atProperties required [] hint result) state result state
  /-- One property, then the others. -/
  | nextProperty {active required name node rest hint result state resolution state₁ answer
      state₂} :
      Runs context active (.atNode node (Naming.property hint name) false) state resolution
        state₁ →
      Runs context active
        (.atProperties required rest hint (result.add required name resolution)) state₁ answer
        state₂ →
      Runs context active (.atProperties required ((name, node) :: rest) hint result) state answer
        state₂
  /-- No object is called for. -/
  | noObject {active schema hint state} :
      schema.types.contains .object = false →
      Runs context active (.atObject schema hint) state true state
  /-- The name of the object is taken. -/
  | knownObject {active schema hint state} :
      schema.types.contains .object = true →
      state.repository.contains hint = true →
      Runs context active (.atObject schema hint) state true state
  /-- The properties are resolved, but nothing is registered any more. -/
  | lostObject {active schema hint state result state'} :
      schema.types.contains .object = true →
      state.repository.contains hint = false →
      Runs context active (.atProperties schema.required schema.properties hint {}) state result
        state' →
      state'.cancelled = true →
      Runs context active (.atObject schema hint) state false state'
  /-- The properties are resolved, and the object is registered. -/
  | object {active schema hint state result state'} :
      schema.types.contains .object = true →
      state.repository.contains hint = false →
      Runs context active (.atProperties schema.required schema.properties hint {}) state result
        state' →
      state'.cancelled = false →
      Runs context active (.atObject schema hint) state result.succeeded
        (state'.register context.cancelAt (.object hint result.properties))
  /-- No array is called for. -/
  | noArray {active schema hint state} :
      schema.types.contains .array = false →
      Runs context active (.atArray schema hint) state true state
  /-- The name of the array is taken. -/
  | knownArray {active schema hint state} :
      schema.types.contains .array = true →
      state.repository.contains hint = true →
      Runs context active (.atArray schema hint) state true state
  /-- Nothing is said about the items. -/
  | noItems {active schema hint state} :
      schema.types.contains .array = true →
      state.repository.contains hint = false →
      schema.items = none →
      Runs context active (.atArray schema hint) state false
        (state.record (.missingArrayItems hint))
  /-- The items are anything, or nothing. -/
  | anyItems {active schema hint allowed state} :
      schema.types.contains .array = true →
      state.repository.contains hint = false →
      schema.items = some (.always allowed) →
      Runs context active (.atArray schema hint) state false
        (state.record (.booleanSchema (Naming.arrayItem hint)))
  /-- The items are not resolved. -/
  | lostArray {active schema hint node state resolution state'} :
      schema.types.contains .array = true →
      state.repository.contains hint = false →
      schema.items = some (.each node) →
      Runs context active (.atNode node (Naming.arrayItem hint) false) state resolution state' →
      resolution.succeeded = false →
      Runs context active (.atArray schema hint) state false state'
  /-- The items are resolved, and the array is registered. -/
  | array {active schema hint node state resolution state'} :
      schema.types.contains .array = true →
      state.repository.contains hint = false →
      schema.items = some (.each node) →
      Runs context active (.atNode node (Naming.arrayItem hint) false) state resolution state' →
      resolution.succeeded = true →
      Runs context active (.atArray schema hint) state true
        (state'.register context.cancelAt (.array hint resolution.references))

/-! ## Every answer has its run -/

section Soundness

variable {context : Context} {active : List ModelName} {follow : FollowReference}

/-- A stage ends in nothing but runs, whatever the state. -/
def Stage.Sound (context : Context) (active : List ModelName) (follow : FollowReference)
    {kind : StageKind} (stage : Stage kind) : Prop :=
  ∀ state answer state', stage.step context follow state = .ok answer state' →
    Runs context active stage state answer state'

/-- The object of a schema is sound if its properties are. -/
theorem sound_atObject {schema : Schema} {hint : ModelName}
    (h : (Stage.atProperties schema.required schema.properties hint {}).Sound context active
      follow) : (Stage.atObject schema hint).Sound context active follow := by
  intro state answer state' hrun
  simp only [Stage.step, registerOnce] at hrun
  split at hrun
  · next hcalled =>
    simp only [Resolver.bind_eq_ok_iff, Resolver.isKnown_apply, EStateM.Result.ok.injEq] at hrun
    obtain ⟨_, _, ⟨rfl, rfl⟩, hrun⟩ := hrun
    split at hrun
    · next hknown =>
      cases hrun
      exact .knownObject hcalled hknown
    · next hknown =>
      obtain ⟨result, s, hproperties, hrun⟩ := Resolver.bind_eq_ok_iff.1 hrun
      have hknown : state.repository.contains hint = false := by simpa using hknown
      simp only [registerObject, Resolver.bind_eq_ok_iff, Resolver.isCancelled_apply,
        EStateM.Result.ok.injEq] at hrun
      obtain ⟨_, _, ⟨rfl, rfl⟩, hrun⟩ := hrun
      split at hrun
      · next hcancelled =>
        cases hrun
        exact .lostObject hcalled hknown (h _ _ _ hproperties) hcancelled
      · next hcancelled =>
        cases hrun
        exact .object hcalled hknown (h _ _ _ hproperties) (by simpa using hcancelled)
  · next hcalled =>
    cases hrun
    exact .noObject (by simpa using hcalled)

/-- The array of a schema is sound if its items are. -/
theorem sound_atArray {schema : Schema} {hint : ModelName}
    (h : ∀ node, schema.items = some (.each node) →
      (Stage.atNode node (Naming.arrayItem hint) false).Sound context active follow) :
    (Stage.atArray schema hint).Sound context active follow := by
  intro state answer state' hrun
  simp only [Stage.step, registerOnce] at hrun
  split at hrun
  · next hcalled =>
    simp only [Resolver.bind_eq_ok_iff, Resolver.isKnown_apply, EStateM.Result.ok.injEq] at hrun
    obtain ⟨_, _, ⟨rfl, rfl⟩, hrun⟩ := hrun
    split at hrun
    · next hknown =>
      cases hrun
      exact .knownArray hcalled hknown
    · next hknown =>
      have hknown : state.repository.contains hint = false := by simpa using hknown
      cases hitems : schema.items with
      | none =>
        rw [hitems] at hrun
        cases hrun
        exact .noItems hcalled hknown hitems
      | some items =>
        cases items with
        | always allowed =>
          rw [hitems] at hrun
          cases hrun
          exact .anyItems hcalled hknown hitems
        | each node =>
          rw [hitems, resolveItems] at hrun
          obtain ⟨resolution, s, hnode, hrun⟩ := Resolver.bind_eq_ok_iff.1 hrun
          rw [registerArray] at hrun
          split at hrun
          · next hsucceeded =>
            cases hrun
            exact .array hcalled hknown hitems (h node hitems _ _ _ hnode) hsucceeded
          · next hsucceeded =>
            cases hrun
            exact .lostArray hcalled hknown hitems (h node hitems _ _ _ hnode)
              (by simpa using hsucceeded)
  · next hcalled =>
    cases hrun
    exact .noArray (by simpa using hcalled)

/-- A composition is sound if its members are. -/
theorem sound_of_composition {schema : Schema} {hint : ModelName} {nullable : Bool}
    {kind : CompositionKind} {members : List Node}
    (hshape : schema.composition? = some (kind, members))
    (h : ∀ offered, offersNull context.document kind members = .ok offered →
      (Stage.atMembers offered members hint 0 {}).Sound context active follow) :
    (Stage.atSchema schema hint nullable).Sound context active follow := by
  intro state answer state' hrun
  rw [Stage.step, resolveSchema_of_composition context follow hshape] at hrun
  obtain ⟨offered, s, hoffer, hrun⟩ := Resolver.bind_eq_ok_iff.1 hrun
  obtain ⟨hoffered, rfl⟩ := Resolver.ofExcept_eq_ok_iff.1 hoffer
  obtain ⟨result, s, hmembers, hrun⟩ := Resolver.bind_eq_ok_iff.1 hrun
  cases result with
  | none =>
    cases hrun
    exact .abandoned hshape hoffered (h offered hoffered _ _ _ hmembers)
  | some result =>
    cases hrun
    exact .composed hshape hoffered (h offered hoffered _ _ _ hmembers)

/-- A schema with types is sound if its object and its array are. -/
theorem sound_of_types {schema : Schema} {hint : ModelName} {nullable : Bool}
    (hshape : schema.composition? = none) (htypes : schema.types.isEmpty = false)
    (hobject : (Stage.atObject schema hint).Sound context active follow)
    (harray : (Stage.atArray schema hint).Sound context active follow) :
    (Stage.atSchema schema hint nullable).Sound context active follow := by
  intro state answer state' hrun
  rw [Stage.step, resolveSchema_of_types context follow hshape htypes] at hrun
  obtain ⟨_, s₀, hprimitives, hrun⟩ := Resolver.bind_eq_ok_iff.1 hrun
  rw [registerPrimitives_apply] at hprimitives
  obtain ⟨enumeration, s, henumeration, hrun⟩ := Resolver.bind_eq_ok_iff.1 hrun
  rw [registerEnumeration_apply] at henumeration
  cases hprimitives
  cases henumeration
  obtain ⟨objectDone, s₁, hobjectRun, hrun⟩ := Resolver.bind_eq_ok_iff.1 hrun
  obtain ⟨arrayDone, s₂, harrayRun, hrun⟩ := Resolver.bind_eq_ok_iff.1 hrun
  cases hrun
  refine .typed hshape htypes (hobject _ _ _ ?_) (harray _ _ _ harrayRun)
  rw [ResolverState.registerAll, Schema.flatModels, List.foldl_append]
  exact hobjectRun

/-- A node that is not looked at any more fails. -/
theorem runs_unlessCancelled {node : Node} {hint : ModelName} {nullable : Bool}
    {step : Resolver Resolution} {state state' : ResolverState} {answer : Resolution}
    (hstep : state.cancelled = false → step state = .ok answer state' →
      Runs context active (.atNode node hint nullable) state answer state')
    (hrun : Resolver.unlessCancelled step state = .ok answer state') :
    Runs context active (.atNode node hint nullable) state answer state' := by
  simp only [Resolver.unlessCancelled, Resolver.bind_eq_ok_iff, Resolver.isCancelled_apply,
    EStateM.Result.ok.injEq] at hrun
  obtain ⟨_, _, ⟨rfl, rfl⟩, hrun⟩ := hrun
  split at hrun
  · next hcancelled =>
    cases hrun
    exact .cancelled hcancelled
  · next hcancelled => exact hstep (by simpa using hcancelled) hrun

/-- **Every schema is sound** if references are.

**Proof sketch.** Induction on the parts of the schema, whatever has been gathered before. The
object, the array and the composition made of the parts are sound if these are. -/
theorem sound_of_follow
    (hfollow : ∀ target hint nullable state answer state', state.cancelled = false →
      follow target hint state = .ok answer state' →
      Runs context active (.atNode (.reference target) hint nullable) state answer state')
    (schema : Schema) (hint : ModelName) (nullable : Bool) :
    (Stage.atSchema schema hint nullable).Sound context active follow := by
  refine (Schema.induction
    (fun node => ∀ hint nullable, (Stage.atNode node hint nullable).Sound context active follow)
    (fun schema => ∀ hint nullable,
      (Stage.atSchema schema hint nullable).Sound context active follow)
    (fun members => ∀ offered hint index result,
      (Stage.atMembers offered members hint index result).Sound context active follow)
    (fun properties => ∀ required hint result,
      (Stage.atProperties required properties hint result).Sound context active follow)
    (fun items => ∀ node, items = some (.each node) → ∀ hint,
      (Stage.atNode node hint false).Sound context active follow)
    ?reference ?inline ?composed ?untyped ?typed ?noMembers ?nextMember ?noProperties
    ?nextProperty ?noItems ?anyItems ?items).2.1 schema hint nullable
  case reference =>
    intro target hint nullable state answer state' hrun
    rw [Stage.step, resolveNode] at hrun
    exact runs_unlessCancelled (fun hcancelled => hfollow _ _ _ _ _ _ hcancelled) hrun
  case inline =>
    intro schema ih hint nullable state answer state' hrun
    rw [Stage.step, resolveNode] at hrun
    exact runs_unlessCancelled (fun hcancelled h => .inline hcancelled (ih _ _ _ _ _ h)) hrun
  case composed =>
    intro schema kind members hshape ih hint nullable
    exact sound_of_composition hshape fun offered _ => ih offered hint 0 {}
  case untyped =>
    intro schema hshape htypes hint nullable state answer state' hrun
    rw [Stage.step, resolveSchema_of_untyped context follow hshape htypes] at hrun
    cases hrun
    exact .untyped hshape htypes
  case typed =>
    intro schema hshape htypes ihProperties ihItems hint nullable
    exact sound_of_types hshape htypes (sound_atObject (ihProperties _ hint {}))
      (sound_atArray fun node hitems => ihItems node hitems _)
  case noMembers =>
    intro offered hint index result state answer state' hrun
    cases hrun
    exact .allMembers
  case nextMember =>
    intro member rest ihFirst ihRest offered hint index result state answer state' hrun
    simp only [Stage.step, resolveMembers, Resolver.bind_eq_ok_iff, Resolver.isCancelled_apply,
      EStateM.Result.ok.injEq] at hrun
    obtain ⟨_, _, ⟨rfl, rfl⟩, hrun⟩ := hrun
    split at hrun
    · next hcancelled =>
      cases hrun
      exact .membersLeft hcancelled
    · next hcancelled =>
      obtain ⟨resolution, s, hfirst, hrun⟩ := Resolver.bind_eq_ok_iff.1 hrun
      exact .nextMember (by simpa using hcancelled) (ihFirst _ _ _ _ _ hfirst)
        (ihRest _ _ _ _ _ _ _ hrun)
  case noProperties =>
    intro required hint result state answer state' hrun
    cases hrun
    exact .allProperties
  case nextProperty =>
    intro name node rest ihFirst ihRest required hint result state answer state' hrun
    rw [Stage.step, resolveProperties] at hrun
    obtain ⟨resolution, s, hfirst, hrun⟩ := Resolver.bind_eq_ok_iff.1 hrun
    exact .nextProperty (ihFirst _ _ _ _ _ hfirst) (ihRest _ _ _ _ _ _ hrun)
  case noItems => exact fun _ h => nomatch h
  case anyItems => exact fun _ _ h => nomatch h
  case items =>
    intro node ih node' h hint
    cases h
    exact ih hint false

end Soundness

/-! ## References -/

section References

variable (context : Context) (active : List ModelName) (target : String) (hint : ModelName)

/-- A reference that cannot be taken apart ends the extraction. -/
theorem followReference_of_error {abort : Abort} (h : componentName target = .error abort) :
    followReference context active target hint = throw abort := by
  rw [followReference]
  split <;> simp_all

/-- What is done at a reference that names no component of the document. -/
theorem followReference_of_none (h : componentName target = .ok none) :
    followReference context active target hint =
      refuseReference target hint "not an internal component reference" := by
  rw [followReference]
  split <;> simp_all

/-- What is done at a reference to a component of the document. -/
theorem followReference_of_some {id : String} (h : componentName target = .ok (some id)) :
    followReference context active target hint = (do
      match ← Resolver.finished? id with
      | some resolution => return resolution
      | none =>
        if id ∈ active then return .single id true
        else match context.document.findSchema target with
          | .error abort => throw abort
          | .ok (.error error) => refuseReference target hint error.message
          | .ok (.ok schema) =>
            let resolution ← resolveSchema context (followReference context (id :: active)) schema
              id false
            Resolver.memoise id resolution
            return resolution) := by
  rw [followReference]
  split
  · next h' =>
    rw [h] at h'
    cases h'
  · next h' =>
    rw [h] at h'
    cases h'
  · next id' h' =>
    rw [h] at h'
    cases h'
    congr 1
    funext memo
    cases memo with
    | some resolution => rfl
    | none =>
      by_cases hactive : id ∈ active
      · simp only [hactive, dif_pos, if_pos]
        rfl
      · simp only [hactive, dif_neg, if_neg, not_false_eq_true, Naming.component]
        split <;> simp_all

end References

/-- Following a reference is a run of its node.

**Proof sketch.** Induction along the components that are not active yet. The rules for references
are the branches of `followReference`; when a component is entered, its schema is sound because
references met further inside are. -/
theorem runs_followReference (context : Context) (active : List ModelName) (target : String)
    (hint : ModelName) : ∀ nullable state answer state', state.cancelled = false →
      followReference context active target hint state = .ok answer state' →
      Runs context active (.atNode (.reference target) hint nullable) state answer state' := by
  induction active, target, hint using followReference.induct context with
  | case1 active target hint abort hname =>
    intro nullable state answer state' _ hrun
    rw [followReference_of_error context active target hint hname] at hrun
    cases hrun
  | case2 active target hint hname =>
    intro nullable state answer state' hcancelled hrun
    rw [followReference_of_none context active target hint hname] at hrun
    cases hrun
    exact .refused hcancelled hname
  | case3 active target hint id hname ih =>
    intro nullable state answer state' hcancelled hrun
    rw [followReference_of_some context active target hint hname] at hrun
    simp only [Resolver.bind_eq_ok_iff, Resolver.finished?_apply, EStateM.Result.ok.injEq] at hrun
    obtain ⟨_, _, ⟨rfl, rfl⟩, hrun⟩ := hrun
    cases hmemo : state.memo.find? id with
    | some resolution =>
      rw [hmemo] at hrun
      cases hrun
      exact .finished hcancelled hname hmemo
    | none =>
      rw [hmemo] at hrun
      by_cases hactive : id ∈ active
      · simp only [hactive, if_pos] at hrun
        cases hrun
        exact .busy hcancelled hname hmemo hactive
      · simp only [hactive, if_neg, not_false_eq_true] at hrun
        cases hfound : context.document.findSchema target with
        | error abort =>
          rw [hfound] at hrun
          cases hrun
        | ok found =>
          rw [hfound] at hrun
          cases found with
          | error error =>
            cases hrun
            exact .missing hcancelled hname hmemo hactive hfound
          | ok schema =>
            obtain ⟨resolution, s, hschema, hrun⟩ := Resolver.bind_eq_ok_iff.1 hrun
            cases hrun
            exact .entered hcancelled hname hmemo hactive hfound
              (sound_of_follow (fun target hint => ih hactive schema hfound target hint) _ _ _
                _ _ _ hschema)

/-! ## The ways into the walk -/

section Entrances

variable {context : Context} {state state' : ResolverState}

/-- Every answer about a node is given by a run.

**Proof sketch.** A reference is followed by a run (`runs_followReference`), and a schema that is
written in place is sound since references are. -/
theorem runs_of_ok {active : List ModelName} {node : Node} {hint : ModelName} {nullable : Bool}
    {resolution : Resolution}
    (h : resolveNode context (followReference context active) node hint nullable state =
      .ok resolution state') :
    Runs context active (.atNode node hint nullable) state resolution state' := by
  cases node with
  | reference target =>
    rw [resolveNode] at h
    exact runs_unlessCancelled
      (fun hcancelled => runs_followReference _ _ _ _ _ _ _ _ hcancelled) h
  | inline schema =>
    rw [resolveNode] at h
    exact runs_unlessCancelled (fun hcancelled hschema => .inline hcancelled
      (sound_of_follow (runs_followReference context active) _ _ _ _ _ _ hschema)) h

/-- A component is left alone if its name is registered or it was resolved before; else it is
resolved as a node, while it is active itself, and memoised. -/
theorem resolveComponent_ok {id : String} {node : Node} {answer : Option Resolution}
    (h : resolveComponent context id node state = .ok answer state') :
    ((state.repository.contains id = true ∨ state.memo.contains id = true) ∧ answer = none ∧
      state' = state) ∨
    ∃ resolution s, state.repository.contains id = false ∧ state.memo.contains id = false ∧
      answer = some resolution ∧ Runs context [id] (.atNode node id false) state resolution s ∧
      state' = s.memoise id resolution := by
  simp only [resolveComponent, Resolver.bind_eq_ok_iff, Resolver.get_apply,
    EStateM.Result.ok.injEq] at h
  obtain ⟨_, _, ⟨rfl, rfl⟩, h⟩ := h
  by_cases hknown : (state.repository.contains (Naming.component id) ||
      state.memo.contains (Naming.component id)) = true
  · rw [if_pos hknown] at h
    cases h
    exact .inl ⟨Bool.or_eq_true_iff.1 hknown, rfl, rfl⟩
  · rw [if_neg hknown] at h
    obtain ⟨resolution, s, hnode, h⟩ := Resolver.bind_eq_ok_iff.1 h
    cases h
    simp only [Bool.or_eq_true, not_or, Bool.not_eq_true] at hknown
    exact .inr ⟨resolution, s, hknown.1, hknown.2, rfl, runs_of_ok hnode, rfl⟩

end Entrances

/-! ## Runs of a schema of a known shape -/

section Shapes

variable {context : Context} {active : List ModelName} {schema : Schema} {hint : ModelName}
  {nullable : Bool} {resolution : Resolution} {state state' : ResolverState}

/-- A composition is resolved by its members; its model is registered if all of them were
reached. -/
theorem Runs.of_composition {kind : CompositionKind} {members : List Node}
    (h : Runs context active (.atSchema schema hint nullable) state resolution state')
    (hshape : schema.composition? = some (kind, members)) :
    ∃ offered answer middle, offersNull context.document kind members = .ok offered ∧
      Runs context active (.atMembers offered members hint 0 {}) state answer middle ∧
      ((answer = none ∧ resolution = .single hint false ∧ state' = middle) ∨
        ∃ result, answer = some result ∧ resolution = .single hint result.succeeded ∧
          state' =
            middle.register context.cancelAt (.composition hint kind result.references)) := by
  cases h with
  | composed hshape' hoffered hmembers =>
    cases hshape.symm.trans hshape'
    exact ⟨_, _, _, hoffered, hmembers, .inr ⟨_, rfl, rfl, rfl⟩⟩
  | abandoned hshape' hoffered hmembers =>
    cases hshape.symm.trans hshape'
    exact ⟨_, _, _, hoffered, hmembers, .inl ⟨rfl, rfl, rfl⟩⟩
  | untyped hnone | typed hnone => cases hshape.symm.trans hnone

/-- A schema that says nothing fails, which is recorded. -/
theorem Runs.of_untyped
    (h : Runs context active (.atSchema schema hint nullable) state resolution state')
    (hshape : schema.composition? = none) (htypes : schema.types.isEmpty = true) :
    resolution = .failed ∧ state' = state.record (.missingType hint) := by
  cases h with
  | composed hshape' | abandoned hshape' => cases hshape.symm.trans hshape'
  | untyped => exact ⟨rfl, rfl⟩
  | typed _ htypes' => cases htypes.symm.trans htypes'

/-- A schema with types is resolved by its models without parts, its object and its array. -/
theorem Runs.of_types
    (h : Runs context active (.atSchema schema hint nullable) state resolution state')
    (hshape : schema.composition? = none) (htypes : schema.types.isEmpty = false) :
    ∃ objectDone middle arrayDone,
      Runs context active (.atObject schema hint)
        (state.registerAll context.cancelAt (schema.flatModels hint nullable)) objectDone middle ∧
      Runs context active (.atArray schema hint) middle arrayDone state' ∧
      resolution = ⟨schema.references hint nullable, objectDone && arrayDone⟩ := by
  cases h with
  | composed hshape' | abandoned hshape' => cases hshape.symm.trans hshape'
  | untyped _ htypes' => cases htypes.symm.trans htypes'
  | typed _ _ hobject harray => exact ⟨_, _, _, hobject, harray, rfl⟩

end Shapes

end ApiCatalog
