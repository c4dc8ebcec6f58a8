import ApiCatalog.Proofs.Resolution.Runs

set_option autoImplicit false

/-!
# Runs are answers

The converse of `ApiCatalog.runs_of_ok`: what a run says of a stage is what the walk computes. A run
that is put together from others, such as a run of the same stage from another state, is therefore a
resolution that takes place.

## Main results

* `ApiCatalog.Runs.step_eq_ok`: a stage with a run answers as the run says.
* `ApiCatalog.resolveComponent_of_known`, `ApiCatalog.resolveComponent_of_runs`: what the
  resolution of a component answers.
-/

namespace ApiCatalog

/-! ## Guarded steps -/

namespace Resolver

variable {α β : Type} {state state₁ state₂ : ResolverState}

/-- A step that answers, followed by another one that does. -/
theorem bind_eq_ok {x : Resolver α} {f : α → Resolver β} {a : α} {b : β}
    (hx : x state = .ok a state₁) (hf : f a state₁ = .ok b state₂) :
    (x >>= f) state = .ok b state₂ :=
  bind_eq_ok_iff.2 ⟨a, state₁, hx, hf⟩

/-- A step that depends on the state, where the state is known. -/
theorem ite_eq_ok {condition : Prop} [Decidable condition] {x y : Resolver α} {a : α}
    (hx : condition → x state = .ok a state₁) (hy : ¬ condition → y state = .ok a state₁) :
    (if condition then x else y) state = .ok a state₁ := by
  split
  · next h => exact hx h
  · next h => exact hy h

/-- A guarded step fails once the extraction is cancelled. -/
theorem unlessCancelled_of_cancelled (step : Resolver Resolution) (h : state.cancelled = true) :
    unlessCancelled step state = .ok .failed state := by
  refine bind_eq_ok (isCancelled_apply : isCancelled state = _) ?_
  exact ite_eq_ok (fun _ => rfl) fun hc => absurd h hc

/-- A guarded step is taken until the extraction is cancelled. -/
theorem unlessCancelled_of_not_cancelled {step : Resolver Resolution} {resolution : Resolution}
    (h : state.cancelled = false) (hstep : step state = .ok resolution state₁) :
    unlessCancelled step state = .ok resolution state₁ := by
  refine bind_eq_ok (isCancelled_apply : isCancelled state = _) ?_
  exact ite_eq_ok (fun hc => by rw [h] at hc; cases hc) fun _ => hstep

/-- Whether a step answers, and what it answers and leaves behind passes a check. -/
def answersWith (step : Resolver α) (state : ResolverState) (check : α → ResolverState → Bool) :
    Bool :=
  match step state with
  | .ok answer state' => check answer state'
  | .error _ _ => false

/-- What an answer is checked for holds of it. -/
theorem exists_of_answersWith {step : Resolver α} {check : α → ResolverState → Bool}
    (h : step.answersWith state check = true) :
    ∃ answer state', step state = .ok answer state' ∧ check answer state' = true := by
  unfold answersWith at h
  split at h
  · next hstep => exact ⟨_, _, hstep, h⟩
  · cases h

end Resolver

/-- A model that is called for is registered under a free name. -/
theorem registerOnce_of_free {called done : Bool} {name : ModelName} {step : Resolver Bool}
    {state state' : ResolverState} (hcalled : called = true)
    (hfree : state.repository.contains name = false) (hstep : step state = .ok done state') :
    registerOnce called name step state = .ok done state' := by
  refine Resolver.ite_eq_ok (fun _ => ?_) fun h => absurd hcalled h
  refine Resolver.bind_eq_ok (Resolver.isKnown_apply name : Resolver.isKnown name state = _) ?_
  exact Resolver.ite_eq_ok (fun h => by rw [hfree] at h; cases h) fun _ => hstep

/-! ## Every run is an answer -/

/-- **A stage with a run answers as the run says.**

**Proof sketch.** Induction on the run. Each rule is one branch of the step of its stage, and a
reference is followed while its component is active, as in the rule that enters it. -/
theorem Runs.step_eq_ok {context : Context} {kind : StageKind} {active : List ModelName}
    {stage : Stage kind} {state state' : ResolverState} {answer : kind.Answer}
    (h : Runs context active stage state answer state') :
    stage.step context (followReference context active) state = .ok answer state' := by
  induction h with
  | @cancelled active node hint nullable state hcancelled =>
    cases node with
    | reference target =>
      rw [Stage.step, resolveNode]
      exact Resolver.unlessCancelled_of_cancelled _ hcancelled
    | inline schema =>
      rw [Stage.step, resolveNode]
      exact Resolver.unlessCancelled_of_cancelled _ hcancelled
  | inline hcancelled _ ih =>
    rw [Stage.step, resolveNode]
    exact Resolver.unlessCancelled_of_not_cancelled hcancelled ih
  | refused hcancelled hname =>
    rw [Stage.step, resolveNode]
    refine Resolver.unlessCancelled_of_not_cancelled hcancelled ?_
    rw [followReference_of_none _ _ _ _ hname]
    rfl
  | finished hcancelled hname hmemo =>
    rw [Stage.step, resolveNode]
    refine Resolver.unlessCancelled_of_not_cancelled hcancelled ?_
    rw [followReference_of_some _ _ _ _ hname]
    refine Resolver.bind_eq_ok (Resolver.finished?_apply _) ?_
    rw [hmemo]
    rfl
  | busy hcancelled hname hmemo hactive =>
    rw [Stage.step, resolveNode]
    refine Resolver.unlessCancelled_of_not_cancelled hcancelled ?_
    rw [followReference_of_some _ _ _ _ hname]
    refine Resolver.bind_eq_ok (Resolver.finished?_apply _) ?_
    rw [hmemo]
    exact Resolver.ite_eq_ok (fun _ => rfl) fun h => absurd hactive h
  | missing hcancelled hname hmemo hfresh hfound =>
    rw [Stage.step, resolveNode]
    refine Resolver.unlessCancelled_of_not_cancelled hcancelled ?_
    rw [followReference_of_some _ _ _ _ hname]
    refine Resolver.bind_eq_ok (Resolver.finished?_apply _) ?_
    rw [hmemo]
    refine Resolver.ite_eq_ok (fun h => absurd h hfresh) fun _ => ?_
    rw [hfound]
    rfl
  | entered hcancelled hname hmemo hfresh hfound _ ih =>
    rw [Stage.step, resolveNode]
    refine Resolver.unlessCancelled_of_not_cancelled hcancelled ?_
    rw [followReference_of_some _ _ _ _ hname]
    refine Resolver.bind_eq_ok (Resolver.finished?_apply _) ?_
    rw [hmemo]
    refine Resolver.ite_eq_ok (fun h => absurd h hfresh) fun _ => ?_
    rw [hfound]
    exact Resolver.bind_eq_ok ih rfl
  | composed hshape hoffered _ ih | abandoned hshape hoffered _ ih =>
    rw [Stage.step, resolveSchema_of_composition _ _ hshape]
    refine Resolver.bind_eq_ok (Resolver.ofExcept_eq_ok_iff.2 ⟨hoffered, rfl⟩) ?_
    exact Resolver.bind_eq_ok ih rfl
  | untyped hshape htypes =>
    rw [Stage.step, resolveSchema_of_untyped _ _ hshape htypes]
    rfl
  | typed hshape htypes _ _ ihObject ihArray =>
    rw [Stage.step, resolveSchema_of_types _ _ hshape htypes]
    refine Resolver.bind_eq_ok (registerPrimitives_apply _ _ _) ?_
    refine Resolver.bind_eq_ok (registerEnumeration_apply _ _ _ _ _) ?_
    rw [ResolverState.registerAll, Schema.flatModels, List.foldl_append] at ihObject
    exact Resolver.bind_eq_ok ihObject (Resolver.bind_eq_ok ihArray rfl)
  | allMembers | allProperties =>
    rfl
  | membersLeft hcancelled =>
    rw [Stage.step, resolveMembers]
    refine Resolver.bind_eq_ok Resolver.isCancelled_apply ?_
    exact Resolver.ite_eq_ok (fun _ => rfl) fun h => absurd hcancelled h
  | nextMember hcancelled _ _ ihFirst ihRest =>
    rw [Stage.step, resolveMembers]
    refine Resolver.bind_eq_ok Resolver.isCancelled_apply ?_
    refine Resolver.ite_eq_ok (fun h => by rw [hcancelled] at h; cases h) fun _ => ?_
    exact Resolver.bind_eq_ok ihFirst ihRest
  | nextProperty _ _ ihFirst ihRest =>
    rw [Stage.step, resolveProperties]
    exact Resolver.bind_eq_ok ihFirst ihRest
  | noObject hcalled | noArray hcalled => exact registerOnce_apply (.inl hcalled)
  | knownObject _ hknown | knownArray _ hknown => exact registerOnce_apply (.inr hknown)
  | lostObject hcalled hfree _ hcancelled ih =>
    refine registerOnce_of_free hcalled hfree (Resolver.bind_eq_ok ih ?_)
    refine Resolver.bind_eq_ok Resolver.isCancelled_apply ?_
    exact Resolver.ite_eq_ok (fun _ => rfl) fun h => absurd hcancelled h
  | object hcalled hfree _ hcancelled ih =>
    refine registerOnce_of_free hcalled hfree (Resolver.bind_eq_ok ih ?_)
    refine Resolver.bind_eq_ok Resolver.isCancelled_apply ?_
    exact Resolver.ite_eq_ok (fun h => by rw [hcancelled] at h; cases h) fun _ => rfl
  | noItems hcalled hfree hitems | anyItems hcalled hfree hitems =>
    refine registerOnce_of_free hcalled hfree ?_
    rw [hitems]
    rfl
  | lostArray hcalled hfree hitems _ hfailed ih =>
    refine registerOnce_of_free hcalled hfree ?_
    rw [hitems, resolveItems]
    refine Resolver.bind_eq_ok ih ?_
    exact Resolver.ite_eq_ok (fun h => by rw [hfailed] at h; cases h) fun _ => rfl
  | array hcalled hfree hitems _ hsucceeded ih =>
    refine registerOnce_of_free hcalled hfree ?_
    rw [hitems, resolveItems]
    refine Resolver.bind_eq_ok ih ?_
    exact Resolver.ite_eq_ok (fun _ => rfl) fun h => absurd hsucceeded h

/-! ## Components -/

section Components

variable {context : Context} {state state' : ResolverState} {id : String} {node : Node}

/-- A component whose name is registered, or that was resolved before, is left alone. -/
theorem resolveComponent_of_known
    (h : state.repository.contains id = true ∨ state.memo.contains id = true) :
    resolveComponent context id node state = .ok none state := by
  refine Resolver.bind_eq_ok Resolver.get_apply ?_
  exact Resolver.ite_eq_ok (fun _ => rfl) fun hnew => absurd (Bool.or_eq_true_iff.2 h) hnew

/-- Another component is resolved by a run of its node, and memoised. -/
theorem resolveComponent_of_runs {resolution : Resolution}
    (hname : state.repository.contains id = false) (hmemo : state.memo.contains id = false)
    (h : Runs context [id] (.atNode node id false) state resolution state') :
    resolveComponent context id node state =
      .ok (some resolution) (state'.memoise id resolution) := by
  refine Resolver.bind_eq_ok Resolver.get_apply ?_
  refine Resolver.ite_eq_ok (fun hknown => ?_) fun _ => Resolver.bind_eq_ok h.step_eq_ok rfl
  rcases Bool.or_eq_true_iff.1 hknown with hknown | hknown
  · exact absurd (hname.symm.trans hknown) Bool.false_ne_true
  · exact absurd (hmemo.symm.trans hknown) Bool.false_ne_true

end Components

end ApiCatalog
