import ApiCatalog.Proofs.Resolution.Answers
import ApiCatalog.Proofs.Resolution.Causes

set_option autoImplicit false

/-!
# Sessions of a resolver

A resolver serves one request after another: nodes and components to be resolved, and diagnostics to
be recorded for others. Its memo carries failures from one request to later ones, which do not
report them again; the diagnostic that explains such a failure was recorded by the request that
first met it.

## Main definitions

* `ApiCatalog.Request`: what is asked of a resolver.
* `ApiCatalog.Turn`: a request that was answered.
* `ApiCatalog.Session`: the turns that led from a new resolver to a state.
* `ApiCatalog.Explains`: a diagnostic was recorded when a component failed that a later failure goes
  back to.

## Main results

* `ApiCatalog.Session.explains`: every component that was finished with failure has a diagnostic
  that explains it.
* `ApiCatalog.reported_of_session`: a success reports nothing, and a failure is reported.
-/

namespace ApiCatalog

/-! ## Requests -/

/-- What is asked of a resolver. -/
inductive Request where
  /-- A schema is to be resolved under a hint. -/
  | schema (node : Node) (hint : ModelName)
  /-- A component is to be resolved under its own id. -/
  | component (id : String) (node : Node)
  /-- A diagnostic is to be recorded. -/
  | record (diagnostic : Diagnostic)

namespace Request

/-- What a resolver does at a request, and what it answers if anything is resolved. -/
def perform (context : Context) : Request → Resolver (Option Resolution)
  | .schema node hint => do
    let resolution ← resolve context node hint
    return some resolution
  | .component id node => resolveComponent context id node
  | .record diagnostic => do
    Resolver.record diagnostic
    return none

/-- The frame that the walk for a request begins with. -/
def frame? (request : Request) (state : ResolverState) : Option Frame :=
  match request with
  | .schema node hint => some ⟨[], .atNode node hint false, state⟩
  | .component id node => some ⟨[id], .atNode node id false, state⟩
  | .record _ => none

/-- A diagnostic is recorded, a known component is left alone, or a node is resolved by a run from
the frame of the request, and memoised if it is that of a component. -/
theorem perform_ok {context : Context} {request : Request} {state state' : ResolverState}
    {answer : Option Resolution} (h : request.perform context state = .ok answer state') :
    (answer = none ∧ ((∃ diagnostic, state' = state.record diagnostic) ∨ state' = state)) ∨
    ∃ active node hint resolution s, answer = some resolution ∧
      request.frame? state = some ⟨active, .atNode node hint false, state⟩ ∧
      Runs context active (.atNode node hint false) state resolution s ∧
      (state' = s ∨ ∃ id, state.memo.find? id = none ∧ state' = s.memoise id resolution) := by
  cases request with
  | schema node hint =>
    obtain ⟨resolution, s, hresolve, hanswer⟩ := Resolver.bind_eq_ok_iff.1 h
    cases hanswer
    exact .inr ⟨[], node, hint, resolution, state', rfl, rfl, runs_of_ok hresolve, .inl rfl⟩
  | component id node =>
    rcases resolveComponent_ok h with ⟨-, hanswer, hsame⟩ | ⟨resolution, s, -, hmemo, hanswer, hrun,
      hstate⟩
    · exact .inl ⟨hanswer, .inr hsame⟩
    · refine .inr ⟨[id], node, id, resolution, s, hanswer, rfl, hrun, .inr ⟨id, ?_, hstate⟩⟩
      simpa [OrderedMap.contains] using hmemo
  | record diagnostic =>
    cases h
    exact .inl ⟨rfl, .inl ⟨diagnostic, rfl⟩⟩

end Request

/-! ## Sessions -/

/-- A request that was answered. -/
structure Turn where
  request : Request
  /-- The state before the request. -/
  before : ResolverState
  /-- What the schema or the component was resolved to, if one was. -/
  answer : Option Resolution
  /-- The state after the request. -/
  after : ResolverState

namespace Turn

/-- The diagnostics that a turn recorded. -/
def recorded (turn : Turn) : List Diagnostic :=
  turn.before.recordedSince turn.after

/-- The walk of a turn comes to a reference to a component. -/
def ComesTo (context : Context) (turn : Turn) (id : String) : Prop :=
  ∃ frame, turn.request.frame? turn.before = some frame ∧ frame.ComesTo context id

/-- A turn comes to a component that had failed before. -/
def Recalls (context : Context) (turn : Turn) (id : String) : Prop :=
  turn.ComesTo context id ∧
    ∃ failure, turn.before.memo.find? id = some failure ∧ failure.succeeded = false

/-- A component was finished with failure in a turn. -/
def FailsFirst (turn : Turn) (id : String) : Prop :=
  turn.before.memo.find? id = none ∧
    ∃ failure, turn.after.memo.find? id = some failure ∧ failure.succeeded = false

end Turn

/-- The turns, the last one first, that led from a new resolver, which may have been given models,
to a state. -/
inductive Session (context : Context) : List Turn → ResolverState → Prop
  | start (repository : Repository) : Session context [] { repository }
  | next {turns : List Turn} {state state' : ResolverState} {request : Request}
      {answer : Option Resolution} (h : Session context turns state)
      (hperform : request.perform context state = .ok answer state') :
      Session context (⟨request, state, answer, state'⟩ :: turns) state'

/-- A diagnostic about a schema was recorded in the turn in which a component failed first, or
explains the failure of a component that this turn came back to. -/
inductive Explains (context : Context) : List Turn → String → Diagnostic → Prop
  /-- The component failed first in the last turn, which recorded the diagnostic. -/
  | recorded {turn : Turn} {turns : List Turn} {id : String} {diagnostic : Diagnostic}
      (hfails : turn.FailsFirst id) (hmem : diagnostic ∈ turn.recorded)
      (hkind : diagnostic.kind = .schemaResolution) :
      Explains context (turn :: turns) id diagnostic
  /-- The component failed first in the last turn, which came back to another failure. -/
  | recalled {turn : Turn} {turns : List Turn} {id other : String} {diagnostic : Diagnostic}
      (hfails : turn.FailsFirst id) (hrecalls : turn.Recalls context other)
      (h : Explains context turns other diagnostic) :
      Explains context (turn :: turns) id diagnostic
  /-- The component failed first in an earlier turn. -/
  | earlier {turn : Turn} {turns : List Turn} {id : String} {diagnostic : Diagnostic}
      (h : Explains context turns id diagnostic) : Explains context (turn :: turns) id diagnostic

section Sessions

variable {context : Context} {turns : List Turn} {state state' : ResolverState}

/-- A request leads to a later state. -/
theorem Request.grows {request : Request} {answer : Option Resolution}
    (h : request.perform context state = .ok answer state') : state.Grows state' := by
  rcases Request.perform_ok h with ⟨-, ⟨diagnostic, rfl⟩ | rfl⟩ | ⟨_, _, _, _, s, -, -, hrun, hend⟩
  · exact .record _ _
  · exact .refl _
  · rcases hend with rfl | ⟨id, hnew, rfl⟩
    · exact hrun.grows
    · exact hrun.grows.memoise hnew

/-- What explains the failure of a component is about a schema, and is among the diagnostics. -/
theorem Explains.mem {id : String} {diagnostic : Diagnostic}
    (h : Explains context turns id diagnostic) (hsession : Session context turns state) :
    diagnostic.kind = .schemaResolution ∧ diagnostic ∈ state.diagnostics := by
  induction h generalizing state with
  | recorded _ hmem hkind =>
    cases hsession with
    | next => exact ⟨hkind, ResolverState.mem_of_recordedSince hmem⟩
  | recalled _ _ _ ih | earlier _ ih =>
    cases hsession with
    | next hbefore hperform =>
      obtain ⟨hkind, hmem⟩ := ih hbefore
      exact ⟨hkind, (Request.grows hperform).diagnostics.subset hmem⟩

/-- Whatever fails in a turn has a cause in it: the answer, and each component that fails first. -/
theorem Request.hasCause {request : Request} {answer : Option Resolution}
    (h : request.perform context state = .ok answer state') (hend : state'.cancelled = false)
    (hfails : (∃ resolution, answer = some resolution ∧ resolution.succeeded = false) ∨
      ∃ id, (Turn.mk request state answer state').FailsFirst id) :
    (∃ diagnostic ∈ (Turn.mk request state answer state').recorded,
      diagnostic.kind = .schemaResolution) ∨
    ∃ id, (Turn.mk request state answer state').Recalls context id := by
  rcases Request.perform_ok h with ⟨rfl, hstate⟩ | ⟨active, node, hint, resolution, s, rfl, hframe,
    hrun, hstate⟩
  · exfalso
    have hmemo : state'.memo = state.memo := by
      rcases hstate with ⟨diagnostic, rfl⟩ | rfl <;> rfl
    rcases hfails with ⟨resolution, hanswer, -⟩ | ⟨id, hnew, failure, hfind, -⟩
    · cases hanswer
    · rw [show (Turn.mk request state none state').after.memo = state.memo from hmemo] at hfind
      exact Option.some_ne_none failure (hfind.symm.trans hnew)
  · have hsame : s.cancelled = state'.cancelled ∧ s.diagnostics = state'.diagnostics := by
      rcases hstate with rfl | ⟨id, -, rfl⟩
      · exact ⟨rfl, rfl⟩
      · exact ⟨by simp, by simp⟩
    have hjustified := hrun.hasCause (hsame.1.trans hend)
    have hcause : (Frame.mk active (.atNode node hint false) state).HasCause context s := by
      rcases hfails with ⟨_, hanswer, hfailed⟩ | ⟨id, hnew, failure, hfind, hfailed⟩
      · cases hanswer
        exact hjustified.answer hfailed
      · -- what failed first was finished by the walk, or is the component of the request
        have hfound : s.memo.find? id = some failure ∨ failure = resolution := by
          rcases hstate with rfl | ⟨_, -, rfl⟩
          · exact .inl hfind
          · exact (ResolverState.find?_memoise_cases hfind).imp_right And.right
        rcases hfound with hfound | rfl
        · rcases hjustified.memo id failure hfound hfailed with hbefore | hcause
          · exact absurd (hbefore.symm.trans hnew) (Option.some_ne_none failure)
          · exact hcause
        · exact hjustified.answer hfailed
    rcases hcause with ⟨diagnostic, hmem, hkind⟩ | ⟨id, failure, hcomes, hfind, hfailed⟩
    · refine .inl ⟨diagnostic, ?_, hkind⟩
      rw [ResolverState.recordedSince, hsame.2] at hmem
      exact hmem
    · exact .inr ⟨id, ⟨_, hframe, hcomes⟩, failure, hfind, hfailed⟩

/-- **Every component that was finished with failure has a diagnostic that explains it.**

**Proof sketch.** Induction on the session. A component that fails first in the last turn has a
cause there; if that is a component that had failed before, its explanation is one for this one
too. -/
theorem Session.explains (h : Session context turns state) (hend : state.cancelled = false)
    {id : String} {failure : Resolution} (hfind : state.memo.find? id = some failure)
    (hfailed : failure.succeeded = false) :
    ∃ diagnostic, Explains context turns id diagnostic := by
  induction h generalizing id failure with
  | start => cases hfind
  | @next turns state state' request answer hsession hperform ih =>
    have hend' := (Request.grows hperform).not_cancelled hend
    cases hbefore : state.memo.find? id with
    | some failure' =>
      have hsame := (Request.grows hperform).memo id failure' hbefore
      rw [hfind] at hsame
      cases hsame
      obtain ⟨diagnostic, hexplains⟩ := ih hend' hbefore hfailed
      exact ⟨diagnostic, .earlier hexplains⟩
    | none =>
      have hfirst : (Turn.mk request state answer state').FailsFirst id :=
        ⟨hbefore, failure, hfind, hfailed⟩
      rcases Request.hasCause hperform hend (.inr ⟨id, hfirst⟩) with
        ⟨diagnostic, hmem, hkind⟩ | ⟨other, hcomes, failure', hfind', hfailed'⟩
      · exact ⟨diagnostic, .recorded hfirst hmem hkind⟩
      · obtain ⟨diagnostic, hexplains⟩ := ih hend' hfind' hfailed'
        exact ⟨diagnostic, .recalled hfirst ⟨hcomes, failure', hfind', hfailed'⟩ hexplains⟩

/-- The failures of a session are reported. -/
theorem Session.accounted (h : Session context turns state) (hend : state.cancelled = false) :
    state.Accounted := by
  intro id failure hfind hfailed
  obtain ⟨diagnostic, hexplains⟩ := h.explains hend hfind hfailed
  obtain ⟨hkind, hmem⟩ := hexplains.mem h
  exact ⟨diagnostic, hmem, by simp [Diagnostic.isStructural, hkind]⟩

/-- **A success reports nothing, and a failure is reported**, in every session that was not
cancelled: a resolution that succeeds leaves the diagnostics as they were, and after one that fails
there is a diagnostic about a schema that was recorded in the same turn, or that explains the
failure of a component which this turn comes back to.

**Proof sketch.** `Runs.accounts` for successes. A failure has a cause in its turn
(`Request.hasCause`), and a component that it comes back to has an explanation
(`Session.explains`). -/
theorem reported_of_session (h : Session context turns state) {request : Request}
    {resolution : Resolution}
    (hperform : request.perform context state = .ok (some resolution) state')
    (hend : state'.cancelled = false) :
    (resolution.succeeded = true → state'.diagnostics = state.diagnostics) ∧
    (resolution.succeeded = false → ∃ diagnostic ∈ state'.diagnostics,
      diagnostic.kind = .schemaResolution ∧
        (diagnostic ∈ (Turn.mk request state (some resolution) state').recorded ∨
          ∃ id, (Turn.mk request state (some resolution) state').Recalls context id ∧
            Explains context turns id diagnostic)) := by
  have hgrows := Request.grows hperform
  refine ⟨fun hsucceeded => ?_, fun hfailed => ?_⟩
  · rcases Request.perform_ok hperform with ⟨hanswer, -⟩ | ⟨_, _, _, _, s, hanswer, -, hrun, hstate⟩
    · cases hanswer
    · cases hanswer
      have hsame : s.cancelled = false ∧ state'.diagnostics = s.diagnostics := by
        rcases hstate with rfl | ⟨id, -, rfl⟩
        · exact ⟨hend, rfl⟩
        · exact ⟨by simpa using hend, by simp⟩
      have haccounts := hrun.accounts hsame.1 trivial (h.accounted (hgrows.not_cancelled hend))
      exact hsame.2.trans (haccounts.2.silent hsucceeded)
  · rcases Request.hasCause hperform hend (.inl ⟨resolution, rfl, hfailed⟩) with
      ⟨diagnostic, hmem, hkind⟩ | ⟨id, hcomes, failure, hfind, hfailure⟩
    · exact ⟨diagnostic, ResolverState.mem_of_recordedSince hmem, hkind, .inl hmem⟩
    · obtain ⟨diagnostic, hexplains⟩ := h.explains (hgrows.not_cancelled hend) hfind hfailure
      obtain ⟨hkind, hmem⟩ := hexplains.mem h
      exact ⟨diagnostic, hgrows.diagnostics.subset hmem, hkind,
        .inr ⟨id, ⟨hcomes, failure, hfind, hfailure⟩, hexplains⟩⟩

/-- A component that says nothing. -/
def blank : Document :=
  .ofSchemas [("Blank", .inline {})]

/-- A reference to a component that failed when it was resolved by itself: nothing is reported
again, but the diagnostic of the first turn is still there. -/
theorem reported_blank :
    ∃ turns state state' resolution, Session ⟨blank, none⟩ turns state ∧
      (Request.schema (.reference "#/components/schemas/Blank") "x").perform ⟨blank, none⟩ state =
        .ok (some resolution) state' ∧
      state'.cancelled = false ∧ resolution.succeeded = false ∧
      state'.diagnostics = state.diagnostics ∧
      ∃ diagnostic ∈ state'.diagnostics, diagnostic.kind = .schemaResolution ∧
        ∃ id, Explains ⟨blank, none⟩ turns id diagnostic := by
  let context : Context := ⟨blank, none⟩
  let failed : ResolverState := ({} : ResolverState).record (.missingType "Blank")
  have hfirst : (Request.component "Blank" (.inline {})).perform context {} =
      .ok (some .failed) (failed.memoise "Blank" .failed) :=
    resolveComponent_of_runs rfl rfl (.inline rfl (.untyped rfl rfl))
  have hmemo : (failed.memoise "Blank" .failed).memo.find? "Blank" = some .failed := by decide
  have hrun : Runs context [] (.atNode (.reference "#/components/schemas/Blank") "x" false)
      (failed.memoise "Blank" .failed) .failed (failed.memoise "Blank" .failed) :=
    .finished rfl (by decide) hmemo
  have hsecond : (Request.schema (.reference "#/components/schemas/Blank") "x").perform context
      (failed.memoise "Blank" .failed) = .ok (some .failed) (failed.memoise "Blank" .failed) :=
    Resolver.bind_eq_ok hrun.step_eq_ok rfl
  have hsession := Session.next (.start ∅) hfirst
  obtain ⟨diagnostic, hmem, hkind, hwhere⟩ := (reported_of_session hsession hsecond rfl).2 rfl
  refine ⟨_, _, _, _, hsession, hsecond, rfl, rfl, rfl, diagnostic, hmem, hkind, ?_⟩
  rcases hwhere with hrecorded | ⟨id, -, hexplains⟩
  · cases hrecorded
  · exact ⟨id, hexplains⟩

end Sessions

end ApiCatalog
