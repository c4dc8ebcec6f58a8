import ApiCatalog.Proofs.Resolution.Cancellation

set_option autoImplicit false

/-!
# Limits on the number of models

A resolution may be told to stop when a certain number of models is reached. Then there are fewer
models for as long as it was not cancelled, and so it is cancelled if the complete resolution
reaches that number.

## Main definitions

* `ResolverState.Below`: there are fewer models than a limit, unless the resolution was cancelled.

## Main results

* `ApiCatalog.Runs.staysBelow`: a run stays below the limit or is cancelled.
* `ApiCatalog.Runs.unlimited`: a run that is not cancelled is one without a limit.
* `Document.BreaksOff.le_size`, `Document.BreaksOff.take_eq`: a resolution that breaks off has
  registered the same models up to the limit.
-/

namespace ApiCatalog

/-! ## Below a limit -/

/-- A registration adds one model if it stores it, and none otherwise. -/
theorem Repository.size_register (repository : Repository) (model : Model) :
    (repository.register model).2.size =
      if (repository.register model).1 then repository.size + 1 else repository.size := by
  unfold register
  split <;> simp [size]

/-- There are fewer models than a limit, unless the resolution was cancelled. -/
def ResolverState.Below (limit : Nat) (state : ResolverState) : Prop :=
  state.cancelled = false → state.repository.size < limit

/-- A registration stays below the limit, or cancels the resolution. -/
theorem ResolverState.Below.register {limit : Nat} {state : ResolverState}
    (h : state.Below limit) (model : Model) :
    (state.register (some limit) model).Below limit := by
  intro hend
  simp only [ResolverState.register, Bool.or_eq_false_iff, Bool.and_eq_false_iff,
    decide_eq_false_iff_not, Option.some.injEq] at hend
  obtain ⟨hcancelled, hstored⟩ := hend
  have hbelow := h hcancelled
  have hsize := state.repository.size_register model
  rw [ResolverState.repository_register]
  rcases hstored with hstored | hreached
  · rw [hstored] at hsize
    exact hsize ▸ hbelow
  · split at hsize <;> omega

/-- A memoisation registers nothing. -/
theorem ResolverState.Below.memoise {limit : Nat} {state : ResolverState} (h : state.Below limit)
    (id : ModelName) (resolution : Resolution) : (state.memoise id resolution).Below limit := by
  intro hend
  rw [ResolverState.cancelled_memoise] at hend
  rw [ResolverState.repository_memoise]
  exact h hend

/-- **A run stays below the limit** or is cancelled. -/
theorem Runs.staysBelow {document : Document} {limit : Nat} {kind : StageKind}
    {active : List ModelName} {stage : Stage kind} {state state' : ResolverState}
    {answer : kind.Answer} (h : Runs ⟨document, some limit⟩ active stage state answer state')
    (hbelow : state.Below limit) : state'.Below limit :=
  h.maintains (ResolverState.Below limit) (fun model hstate => hstate.register model)
    (fun _ hstate => hstate) (fun id resolution hstate => hstate.memoise id resolution) hbelow

/-! ## Resolutions that stay below their limit -/

/-- A registration that does not cancel is one without a limit. -/
theorem ResolverState.register_unlimited {cancelAt : Option Nat} {state : ResolverState}
    {model : Model} (hend : (state.register cancelAt model).cancelled = false) :
    state.register cancelAt model = state.register none model := by
  simp only [ResolverState.register, Bool.or_eq_false_iff] at hend ⊢
  simp [hend.1, hend.2]

/-- So are several. -/
theorem ResolverState.registerAll_unlimited {cancelAt : Option Nat} {state : ResolverState}
    {models : List Model} (hend : (state.registerAll cancelAt models).cancelled = false) :
    state.registerAll cancelAt models = state.registerAll none models := by
  induction models generalizing state with
  | nil => rfl
  | cons model rest ih =>
    have hfirst := (ResolverState.Grows.registerAll cancelAt _ rest).not_cancelled hend
    show (state.register cancelAt model).registerAll cancelAt rest = _
    rw [ih hend, register_unlimited hfirst]
    rfl

/-- **A run that is not cancelled is one without a limit.**

**Proof sketch.** Induction on the run. Whatever it registers on its way does not cancel it, so that
it is registered in the same way without a limit. -/
theorem Runs.unlimited {document : Document} {cancelAt : Option Nat} {kind : StageKind}
    {active : List ModelName} {stage : Stage kind} {state state' : ResolverState}
    {answer : kind.Answer} (h : Runs ⟨document, cancelAt⟩ active stage state answer state')
    (hend : state'.cancelled = false) :
    Runs ⟨document, none⟩ active stage state answer state' := by
  induction h with
  | cancelled hcancelled => exact .cancelled hcancelled
  | inline hactive _ ih => exact .inline hactive (ih hend)
  | refused hactive hname => exact .refused hactive hname
  | finished hactive hname hmemo => exact .finished hactive hname hmemo
  | busy hactive hname hmemo hid => exact .busy hactive hname hmemo hid
  | missing hactive hname hmemo hid hfound => exact .missing hactive hname hmemo hid hfound
  | entered hactive hname hmemo hid hfound _ ih =>
    rw [ResolverState.cancelled_memoise] at hend
    exact .entered hactive hname hmemo hid hfound (ih hend)
  | composed hshape hoffered _ ih =>
    have hbefore := (ResolverState.Grows.register cancelAt _ _).not_cancelled hend
    rw [ResolverState.register_unlimited hend]
    exact .composed hshape hoffered (ih hbefore)
  | abandoned hshape hoffered _ ih => exact .abandoned hshape hoffered (ih hend)
  | untyped hshape htypes => exact .untyped hshape htypes
  | typed hshape htypes hobject harray ihObject ihArray =>
    have hmiddle := harray.grows.not_cancelled hend
    have hflat := hobject.grows.not_cancelled hmiddle
    have hrun := ihObject hmiddle
    rw [ResolverState.registerAll_unlimited hflat] at hrun
    exact .typed hshape htypes hrun (ihArray hend)
  | allMembers => exact .allMembers
  | membersLeft hcancelled => exact .membersLeft hcancelled
  | nextMember hactive _ hrest ihFirst ihRest =>
    exact .nextMember hactive (ihFirst (hrest.grows.not_cancelled hend)) (ihRest hend)
  | allProperties => exact .allProperties
  | nextProperty _ hrest ihFirst ihRest =>
    exact .nextProperty (ihFirst (hrest.grows.not_cancelled hend)) (ihRest hend)
  | noObject hcalled => exact .noObject hcalled
  | knownObject hcalled hknown => exact .knownObject hcalled hknown
  | lostObject hcalled hknown _ hcancelled ih =>
    exact .lostObject hcalled hknown (ih hend) hcancelled
  | object hcalled hknown _ hactive ih =>
    rw [ResolverState.register_unlimited hend]
    exact .object hcalled hknown (ih hactive) hactive
  | noArray hcalled => exact .noArray hcalled
  | knownArray hcalled hknown => exact .knownArray hcalled hknown
  | noItems hcalled hknown hitems => exact .noItems hcalled hknown hitems
  | anyItems hcalled hknown hitems => exact .anyItems hcalled hknown hitems
  | lostArray hcalled hknown hitems _ hfailed ih =>
    exact .lostArray hcalled hknown hitems (ih hend) hfailed
  | array hcalled hknown hitems _ hsucceeded ih =>
    have hbefore := (ResolverState.Grows.register cancelAt _ _).not_cancelled hend
    rw [ResolverState.register_unlimited hend]
    exact .array hcalled hknown hitems (ih hbefore) hsucceeded

/-! ## Where a resolution breaks off -/

namespace Document.BreaksOff

variable {document : Document} {limit : Nat} {complete cut : Repository}

/-- The complete resolution has reached the limit. -/
theorem le_size (h : document.BreaksOff limit complete cut) : limit ≤ complete.size := by
  obtain ⟨kept, -, -, hkept, hlimit, -⟩ := h
  exact Nat.le_trans hlimit hkept.length_le

/-- **Up to the limit, the models are the same.** -/
theorem take_eq (h : document.BreaksOff limit complete cut) :
    cut.models.take limit = complete.models.take limit := by
  obtain ⟨kept, unfinished, hmodels, ⟨rest, hrest⟩, hlimit, -⟩ := h
  rw [hmodels, ← hrest, List.take_append_of_le_length hlimit, List.take_append_of_le_length hlimit]

end Document.BreaksOff

end ApiCatalog
