import ApiCatalog.Proofs.Resolution.Growth

set_option autoImplicit false

/-!
# Steps that end well

What can be said in advance of a step: it answers, and then something holds of the answer and of
the state that it leaves, or it aborts, for which there has to be an excuse. Steps are put together
by rules of consequence and of sequence.

## Main definitions

* `Resolver.Ends`: a step ends well.

## Main results

* `Resolver.Ends.bind`: a step followed by another.
* `Resolver.Ends.mono`: less may be said.
-/

namespace ApiCatalog

namespace Resolver

/-- A step ends well from a state: it answers such that something holds afterwards, or it aborts and
there is an excuse. -/
def Ends {α : Type} (excuse : Prop) (step : Resolver α) (state : ResolverState)
    (post : α → ResolverState → Prop) : Prop :=
  match step state with
  | .ok answer state' => post answer state'
  | .error _ _ => excuse

namespace Ends

variable {α β : Type} {excuse : Prop} {state state' : ResolverState}

/-- A step that is known to answer. -/
theorem of_ok {step : Resolver α} {a : α} {post : α → ResolverState → Prop}
    (h : step state = .ok a state') (hpost : post a state') : Ends excuse step state post := by
  unfold Ends
  rw [h]
  exact hpost

/-- A step that is known to abort. -/
theorem of_error {step : Resolver α} {abort : Abort} {post : α → ResolverState → Prop}
    (h : step state = .error abort state') (hexcuse : excuse) : Ends excuse step state post := by
  unfold Ends
  rw [h]
  exact hexcuse

/-- Less may be said of what holds afterwards. -/
theorem mono {step : Resolver α} {post post' : α → ResolverState → Prop}
    (h : Ends excuse step state post) (himp : ∀ a s, post a s → post' a s) :
    Ends excuse step state post' := by
  unfold Ends at h ⊢
  cases hstep : step state with
  | ok a s =>
    rw [hstep] at h
    exact himp a s h
  | error abort s =>
    rw [hstep] at h
    exact h

/-- A step followed by another, which ends well from wherever the first one leads. -/
theorem bind {x : Resolver α} {f : α → Resolver β} {post : β → ResolverState → Prop}
    (h : Ends excuse x state fun a s => Ends excuse (f a) s post) :
    Ends excuse (x >>= f) state post := by
  unfold Ends at h
  show Ends excuse (EStateM.bind x f) state post
  unfold Ends EStateM.bind
  cases hstep : x state with
  | ok a s =>
    rw [hstep] at h
    exact h
  | error abort s =>
    rw [hstep] at h
    exact h

/-- A step that is known to answer, followed by another. -/
theorem bind_ok {x : Resolver α} {f : α → Resolver β} {a : α} {post : β → ResolverState → Prop}
    (h : x state = .ok a state') (hf : Ends excuse (f a) state' post) :
    Ends excuse (x >>= f) state post :=
  bind (of_ok h hf)

/-- A step that is not skipped, since the extraction is not cancelled. -/
theorem unlessCancelled {step : Resolver Resolution} {post : Resolution → ResolverState → Prop}
    (hrunning : state.cancelled = false) (h : Ends excuse step state post) :
    Ends excuse (unlessCancelled step) state post := by
  refine bind_ok isCancelled_apply ?_
  rw [hrunning]
  exact h

/-- What is known of a step that answered. -/
theorem post_of_ok {step : Resolver α} {a : α} {post : α → ResolverState → Prop}
    (h : Ends excuse step state post) (hstep : step state = .ok a state') : post a state' := by
  unfold Ends at h
  rw [hstep] at h
  exact h

/-- What is known of a step that aborted. -/
theorem excuse_of_error {step : Resolver α} {abort : Abort} {post : α → ResolverState → Prop}
    (h : Ends excuse step state post) (hstep : step state = .error abort state') : excuse := by
  unfold Ends at h
  rw [hstep] at h
  exact h

end Ends

end Resolver

end ApiCatalog
