import ApiCatalog.Proofs.Extraction.Cancellation
import ApiCatalog.Proofs.Resolution.Limits

set_option autoImplicit false

/-!
# Extractions that stay below their limit

An extraction with a limit on the number of models that was not cancelled is one without a limit:
the complete extraction answers the same, wherever the one with the limit has an answer.

## Main definitions

* `Extraction.Unlimited`: a step that is not cancelled is one without a limit.

## Main results

* `Extraction.congruence_unlimited`: the pass over paths is one without a limit, unless cancelled.
* `Extraction.unlimited_extractComponents`: so is the pass over components.
* `ApiCatalog.sustained_below`: resolutions stay below a limit or are cancelled.
-/

namespace ApiCatalog

namespace Extraction

variable {α β : Type} {document : Document} {cancelAt : Option Nat}

/-- A step answers like the complete one unless it is cancelled, and takes no cancellation back. -/
structure Unlimited (complete cut : Extraction α) : Prop where
  cancelled : Preserves (fun state => state.resolver.cancelled = true) cut
  same : ∀ {state a state'}, cut state = .ok a state' → state'.resolver.cancelled = false →
    complete state = .ok a state'

namespace Unlimited

/-- What is not cancelled afterwards was not cancelled before. -/
theorem active {complete cut : Extraction α} (h : Unlimited complete cut)
    {state state' : ExtractionState} {a : α} (hstep : cut state = .ok a state')
    (hend : state'.resolver.cancelled = false) : state.resolver.cancelled = false := by
  rw [← Bool.not_eq_true] at hend ⊢
  exact fun hstate => hend (h.cancelled state a state' hstate hstep)

/-- A step without a limit. -/
theorem of_preserves {step : Extraction α}
    (h : Preserves (fun state => state.resolver.cancelled = true) step) : Unlimited step step :=
  ⟨h, fun hstep _ => hstep⟩

/-- One step after another. -/
theorem bind {x x' : Extraction α} {f f' : α → Extraction β} (hx : Unlimited x x')
    (hf : ∀ a, Unlimited (f a) (f' a)) : Unlimited (x >>= f) (x' >>= f') where
  cancelled := hx.cancelled.bind fun a => (hf a).cancelled
  same := by
    intro state b state' hstep hend
    obtain ⟨a, s, hfirst, hrest⟩ := bind_eq_ok_iff.1 hstep
    have hmiddle := (hf a).active hrest hend
    exact bind_eq_ok_iff.2 ⟨a, s, hx.same hfirst hmiddle, (hf a).same hrest hend⟩

end Unlimited

/-- The resolution of a schema of an endpoint is one without a limit, unless it is cancelled. -/
theorem unlimited_resolveBound (node : Node) (name : ModelName) :
    Unlimited (resolveBound ⟨document, none⟩ node name)
      (resolveBound ⟨document, cancelAt⟩ node name) where
  cancelled _ _ _ hstate hstep := (grows_resolveBound hstep).resolver.cancelled hstate
  same := by
    intro state a state' hstep hend
    obtain ⟨resolution, resolver, hrun, rfl⟩ := resolveBound_ok hstep
    exact resolveBound_of_runs (hrun.unlimited hend)

/-- The resolution of a component is one without a limit, unless it is cancelled. -/
theorem unlimited_resolveComponent (id : String) (node : Node) :
    Unlimited (ofResolver (resolveComponent ⟨document, none⟩ id node))
      (ofResolver (resolveComponent ⟨document, cancelAt⟩ id node)) where
  cancelled _ _ _ hstate hstep := (grows_resolveComponent hstep).1.resolver.cancelled hstate
  same := by
    intro state a state' hstep hend
    obtain ⟨resolver, hcomponent, rfl⟩ := ofResolver_ok hstep
    rcases resolveComponent_ok hcomponent with
      ⟨hknown, rfl, rfl⟩ | ⟨resolution, s, hname, hmemo, rfl, hrun, rfl⟩
    · exact ofResolver_eq_ok (resolveComponent_of_known hknown)
    · rw [ResolverState.cancelled_memoise] at hend
      exact ofResolver_eq_ok (resolveComponent_of_runs hname hmemo (hrun.unlimited hend))

/-- **Steps that are not cancelled make up a pass over paths without a limit.** -/
theorem congruence_unlimited (document : Document) (cancelAt : Option Nat) :
    Congruence document none cancelAt fun _ complete cut => Unlimited complete cut where
  pure a := .of_preserves (.pure a)
  bind := .bind
  isCancelled := .of_preserves .isCancelled
  hasEndpoint _ _ := .of_preserves (Preserves.get.bind fun _ => .pure _)
  ofExcept result := .of_preserves (.ofExcept result)
  record diagnostic := .of_preserves fun _ _ _ hstate hstep => by
    cases hstep
    exact hstate
  changeIndex change := .of_preserves (.changeIndex (fun _ _ hstate => hstate) change)
  bound _ := unlimited_resolveBound _ _

/-- The pass over components is one without a limit, unless it is cancelled. -/
theorem unlimited_extractComponents (components : List (String × Node)) :
    Unlimited (extractComponents ⟨document, none⟩ components)
      (extractComponents ⟨document, cancelAt⟩ components) :=
  (congruence_unlimited document cancelAt).extractComponents _ _ fun _ _ =>
    unlimited_resolveComponent _ _

end Extraction

/-! ## Below a limit -/

/-- **Resolutions stay below a limit** or are cancelled. -/
theorem sustained_below (document : Document) (limit : Nat) (included : Prop) :
    Sustained ⟨document, some limit⟩ included (ResolverState.Below limit) fun _ _ => True where
  mono _ _ := trivial
  record _ hbelow := hbelow
  node hrun hbelow := ⟨hrun.staysBelow hbelow, fun _ _ _ => trivial⟩
  component _ _ _ hrun hbelow := (hrun.staysBelow hbelow).memoise _ _

end ApiCatalog
