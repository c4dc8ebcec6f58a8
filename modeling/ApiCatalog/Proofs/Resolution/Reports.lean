import ApiCatalog.Proofs.Resolution.Promises

set_option autoImplicit false

/-!
# Failures and diagnostics

Unless the extraction is cancelled, a resolution that succeeds reports nothing, and after one that
fails there is a diagnostic about a schema: it was recorded by the resolution itself, or when the
component that it came back to was first resolved.

## Main definitions

* `ResolverState.Reports`: a problem of a schema was met.
* `ResolverState.Accounted`: the failures of finished components were reported.
* `Stage.Accounts`: the answer of a stage agrees with the diagnostics.

## Main results

* `ApiCatalog.Runs.accounts`: the answer of a run agrees with the diagnostics.
-/

namespace ApiCatalog

namespace ResolverState

/-- A problem of a schema was met. -/
def Reports (state : ResolverState) : Prop :=
  ∃ diagnostic ∈ state.diagnostics, diagnostic.isStructural = false

/-- The failures of finished components were reported. -/
def Accounted (state : ResolverState) : Prop :=
  ∀ id resolution, state.memo.find? id = some resolution → resolution.succeeded = false →
    state.Reports

/-- What was reported stays reported. -/
theorem Reports.mono {state state' : ResolverState} (h : state.Reports)
    (hgrows : state.Grows state') : state'.Reports := by
  obtain ⟨diagnostic, hmem, hkind⟩ := h
  exact ⟨diagnostic, hgrows.diagnostics.subset hmem, hkind⟩

/-- A diagnostic about a schema is a report. -/
theorem reports_record (state : ResolverState) {diagnostic : Diagnostic}
    (h : diagnostic.isStructural = false) : (state.record diagnostic).Reports :=
  ⟨diagnostic, by simp, h⟩

/-- Finishing a component takes no report back. -/
theorem Reports.memoise {state : ResolverState} (h : state.Reports) (id : ModelName)
    (resolution : Resolution) : (state.memoise id resolution).Reports := by
  obtain ⟨diagnostic, hmem, hkind⟩ := h
  exact ⟨diagnostic, by simpa using hmem, hkind⟩

/-- Failures stay accounted for while the memo is as it was. -/
theorem Accounted.mono {state state' : ResolverState} (h : state.Accounted)
    (hgrows : state.Grows state') (hmemo : state'.memo = state.memo) : state'.Accounted :=
  fun id resolution hfind hfailed => (h id resolution (hmemo ▸ hfind) hfailed).mono hgrows

/-- A component may be finished whose failure was reported. -/
theorem Accounted.memoise {state : ResolverState} {id : ModelName} {resolution : Resolution}
    (h : state.Accounted) (hr : resolution.succeeded = false → state.Reports) :
    (state.memoise id resolution).Accounted := by
  refine fun other found hfound hfailed => Reports.memoise ?_ id resolution
  rcases find?_memoise_cases hfound with hfound | ⟨-, rfl⟩
  · exact h other found hfound hfailed
  · exact hr hfailed

end ResolverState

/-- A success that reported nothing, or a failure that was reported. -/
structure Accounts (state state' : ResolverState) (succeeded : Bool) : Prop where
  silent : succeeded = true → state'.diagnostics = state.diagnostics
  reported : succeeded = false → state'.Reports

/-- The failures gathered before a stage were reported. -/
def Stage.Tallied (state : ResolverState) {kind : StageKind} : Stage kind → Prop
  | .atNode _ _ _ => True
  | .atSchema _ _ _ => True
  | .atMembers _ _ _ _ result => result.succeeded = false → state.Reports
  | .atProperties _ _ _ result => result.succeeded = false → state.Reports
  | .atObject _ _ => True
  | .atArray _ _ => True

/-- The answer of a stage agrees with the diagnostics, and fails if something gathered before
failed. -/
def Stage.Accounts (state state' : ResolverState) {kind : StageKind} :
    Stage kind → kind.Answer → Prop
  | .atNode _ _ _, resolution => ApiCatalog.Accounts state state' resolution.succeeded
  | .atSchema _ _ _, resolution => ApiCatalog.Accounts state state' resolution.succeeded
  | .atMembers _ _ _ _ result, answer => ∀ members, answer = some members →
    (members.succeeded = true → result.succeeded = true) ∧
      ApiCatalog.Accounts state state' members.succeeded
  | .atProperties _ _ _ result, answer =>
    (answer.succeeded = true → result.succeeded = true) ∧
      ApiCatalog.Accounts state state' answer.succeeded
  | .atObject _ _, done => ApiCatalog.Accounts state state' done
  | .atArray _ _, done => ApiCatalog.Accounts state state' done

namespace Accounts

variable {state state₁ state₂ : ResolverState}

/-- Nothing happened. -/
theorem refl (state : ResolverState) : Accounts state state true :=
  ⟨fun _ => rfl, fun h => nomatch h⟩

/-- A failure that is reported at once. -/
theorem record (state : ResolverState) {diagnostic : Diagnostic}
    (h : diagnostic.isStructural = false) : Accounts state (state.record diagnostic) false :=
  ⟨fun hs => (nomatch hs), fun _ => state.reports_record h⟩

/-- One thing after another, of which the second tells whether both succeeded. -/
theorem trans {first both : Bool} (h₁ : Accounts state state₁ first)
    (h₂ : Accounts state₁ state₂ both) (hboth : both = true → first = true) :
    Accounts state state₂ both :=
  ⟨fun h => (h₂.silent h).trans (h₁.silent (hboth h)), h₂.reported⟩

/-- One thing after another, both of which have to succeed. -/
theorem and {first second : Bool} (h₁ : Accounts state state₁ first)
    (h₂ : Accounts state₁ state₂ second) (hgrows : state₁.Grows state₂) :
    Accounts state state₂ (first && second) := by
  refine ⟨fun h => ?_, fun h => ?_⟩
  · obtain ⟨hfirst, hsecond⟩ := Bool.and_eq_true_iff.1 h
    exact (h₂.silent hsecond).trans (h₁.silent hfirst)
  · cases hfirst : first with
    | false => exact (h₁.reported hfirst).mono hgrows
    | true => exact h₂.reported (by simpa [hfirst] using h)

/-- Only the diagnostics count. -/
theorem congr {succeeded : Bool} (h : Accounts state state₁ succeeded)
    (he : state₂.diagnostics = state₁.diagnostics) : Accounts state state₂ succeeded :=
  ⟨fun hs => he.trans (h.silent hs), fun hs => by
    obtain ⟨diagnostic, hmem, hkind⟩ := h.reported hs
    exact ⟨diagnostic, he ▸ hmem, hkind⟩⟩

end Accounts

/-- A failure so far was reported, before the last part or by it. -/
theorem reports_of_and {state state' : ResolverState} {before last : Bool}
    (hbefore : before = false → state.Reports) (hlast : Accounts state state' last)
    (hgrows : state.Grows state') (h : (before && last) = false) : state'.Reports := by
  cases hb : before with
  | false => exact (hbefore hb).mono hgrows
  | true => exact hlast.reported (by simpa [hb] using h)

/-- **The answer of a run agrees with the diagnostics**, unless the extraction is cancelled.

**Proof sketch.** Induction on the run. Whatever fails records a diagnostic about a schema, or comes
back to a component that failed and was reported; a success leaves the diagnostics alone. -/
theorem Runs.accounts {context : Context} {kind : StageKind} {active : List ModelName}
    {stage : Stage kind} {state state' : ResolverState} {answer : kind.Answer}
    (h : Runs context active stage state answer state') (hend : state'.cancelled = false)
    (htallied : stage.Tallied state) (haccounted : state.Accounted) :
    state'.Accounted ∧ stage.Accounts state state' answer := by
  induction h with
  | cancelled hcancelled =>
    rw [hcancelled] at hend
    cases hend
  | inline _ _ ih => exact ih hend trivial haccounted
  | refused | missing | untyped | noItems | anyItems =>
    exact ⟨haccounted.mono (.record _ _) rfl, Accounts.record _ rfl⟩
  | finished _ _ hmemo =>
    exact ⟨haccounted, fun _ => rfl, fun hfailed => haccounted _ _ hmemo hfailed⟩
  | busy => exact ⟨haccounted, .refl _⟩
  | entered _ _ _ _ _ _ ih =>
    rw [ResolverState.cancelled_memoise] at hend
    obtain ⟨haccounted', haccounts⟩ := ih hend trivial haccounted
    exact ⟨haccounted'.memoise haccounts.reported,
      haccounts.congr (ResolverState.diagnostics_memoise _ _ _)⟩
  | composed _ _ _ ih =>
    obtain ⟨haccounted', haccounts⟩ := ih ((ResolverState.Grows.register _ _ _).not_cancelled hend)
      (fun h => nomatch h) haccounted
    exact ⟨haccounted', (haccounts _ rfl).2.congr rfl⟩
  | abandoned _ _ hmembers =>
    rw [hmembers.cancelled_of_none] at hend
    cases hend
  | typed _ _ _ harray ihObject ihArray =>
    obtain ⟨haccounted₁, haccounts₁⟩ := ihObject (harray.grows.not_cancelled hend) trivial
      (haccounted.mono (.registerAll _ _ _) (ResolverState.memo_registerAll _ _ _))
    obtain ⟨haccounted₂, haccounts₂⟩ := ihArray hend trivial haccounted₁
    refine ⟨haccounted₂, ?_⟩
    have hboth := haccounts₁.and haccounts₂ harray.grows
    exact ⟨fun h => (hboth.silent h).trans (by simp), hboth.reported⟩
  | allMembers =>
    refine ⟨haccounted, fun members hmembers => ?_⟩
    cases hmembers
    exact ⟨id, fun _ => rfl, htallied⟩
  | membersLeft => exact ⟨haccounted, fun _ h => nomatch h⟩
  | nextMember _ hfirst hrest ihFirst ihRest =>
    obtain ⟨haccounted₁, haccounts₁⟩ := ihFirst (hrest.grows.not_cancelled hend) trivial haccounted
    obtain ⟨haccounted₂, haccounts₂⟩ := ihRest hend (fun hfailed =>
      reports_of_and htallied haccounts₁ hfirst.grows
        ((MemberResult.succeeded_add _ _).symm.trans hfailed)) haccounted₁
    refine ⟨haccounted₂, fun members hmembers => ?_⟩
    obtain ⟨hall, haccounts⟩ := haccounts₂ members hmembers
    rw [MemberResult.succeeded_add, Bool.and_eq_true] at hall
    exact ⟨fun h => (hall h).1, haccounts₁.trans haccounts fun h => (hall h).2⟩
  | allProperties => exact ⟨haccounted, id, fun _ => rfl, htallied⟩
  | nextProperty hfirst hrest ihFirst ihRest =>
    obtain ⟨haccounted₁, haccounts₁⟩ := ihFirst (hrest.grows.not_cancelled hend) trivial haccounted
    obtain ⟨haccounted₂, hall, haccounts⟩ := ihRest hend (fun hfailed =>
      reports_of_and htallied haccounts₁ hfirst.grows
        ((PropertyResult.succeeded_add _ _ _ _).symm.trans hfailed)) haccounted₁
    rw [PropertyResult.succeeded_add, Bool.and_eq_true] at hall
    exact ⟨haccounted₂, fun h => (hall h).1, haccounts₁.trans haccounts fun h => (hall h).2⟩
  | noObject | knownObject | noArray | knownArray => exact ⟨haccounted, .refl _⟩
  | lostObject _ _ _ hcancelled =>
    rw [hcancelled] at hend
    cases hend
  | object _ _ _ hcancelled ih =>
    obtain ⟨haccounted', -, haccounts⟩ := ih hcancelled (fun h => nomatch h) haccounted
    exact ⟨haccounted', haccounts.congr rfl⟩
  | lostArray _ _ _ _ hfailed ih =>
    obtain ⟨haccounted', haccounts⟩ := ih hend trivial haccounted
    change Accounts _ _ _ at haccounts
    rw [hfailed] at haccounts
    exact ⟨haccounted', haccounts⟩
  | array _ _ _ _ hsucceeded ih =>
    obtain ⟨haccounted', haccounts⟩ := ih
      ((ResolverState.Grows.register _ _ _).not_cancelled hend) trivial haccounted
    change Accounts _ _ _ at haccounts
    rw [hsucceeded] at haccounts
    exact ⟨haccounted', haccounts.congr rfl⟩

end ApiCatalog
