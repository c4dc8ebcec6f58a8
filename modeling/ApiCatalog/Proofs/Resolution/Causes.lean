import ApiCatalog.Proofs.Resolution.Calls
import ApiCatalog.Proofs.Resolution.Reports

set_option autoImplicit false

/-!
# Causes of failures

Unless the extraction is cancelled, a frame that fails has a cause: a diagnostic about a schema that
was recorded meanwhile, or a reference, come to on the way, to a component that was finished with
failure before the frame began. The same holds of every component that is finished with failure
meanwhile.

## Main definitions

* `ResolverState.recordedSince`: the diagnostics that were recorded since another state.
* `Frame.ComesTo`: a frame comes to a reference to a component.
* `Frame.HasCause`: there is a cause for failures between the state of a frame and a later one.
* `Stage.Fails`: the answer of a stage is a failure, though nothing had failed before it.

## Main results

* `ApiCatalog.Runs.hasCause`: whatever fails has a cause.
-/

namespace ApiCatalog

/-! ## Diagnostics since a state -/

namespace ResolverState

variable {before state state₁ state₂ : ResolverState}

/-- The diagnostics that were recorded since another state. -/
def recordedSince (before state : ResolverState) : List Diagnostic :=
  state.diagnostics.drop before.diagnostics.length

/-- A later state has the diagnostics of the earlier one and those recorded since. -/
theorem Grows.append_recordedSince (h : before.Grows state) :
    before.diagnostics ++ before.recordedSince state = state.diagnostics := by
  obtain ⟨new, hnew⟩ := h.diagnostics
  rw [recordedSince, ← hnew, List.drop_left]

/-- What was recorded since a state is among the diagnostics. -/
theorem mem_of_recordedSince {diagnostic : Diagnostic}
    (h : diagnostic ∈ before.recordedSince state) : diagnostic ∈ state.diagnostics :=
  List.mem_of_mem_drop h

/-- What was recorded in two spans was recorded in one or the other. -/
theorem recordedSince_trans (h₁ : before.Grows state₁) (h₂ : state₁.Grows state₂) :
    before.recordedSince state₂ = before.recordedSince state₁ ++ state₁.recordedSince state₂ := by
  have hall := h₂.append_recordedSince
  rw [← h₁.append_recordedSince, List.append_assoc] at hall
  rw [recordedSince, ← hall, List.drop_left]

/-- Only the diagnostics count. -/
theorem recordedSince_congr (h : before.diagnostics = state.diagnostics) :
    before.recordedSince state₁ = state.recordedSince state₁ := by
  rw [recordedSince, h, recordedSince]

end ResolverState

/-! ## Causes -/

/-- The calls of a frame come to a reference to a component. -/
def Frame.ComesTo (context : Context) (frame : Frame) (id : String) : Prop :=
  ∃ active target hint nullable state,
    Relation.ReflTransGen (Calls context) frame
      ⟨active, .atNode (.reference target) hint nullable, state⟩ ∧
    state.cancelled = false ∧ componentName target = .ok (some id)

/-- There is a cause for failures between the state of a frame and a later one: a diagnostic about
a schema was recorded, or the frame comes to a component that had failed before. -/
def Frame.HasCause (context : Context) (frame : Frame) (after : ResolverState) : Prop :=
  (∃ diagnostic ∈ frame.state.recordedSince after, diagnostic.kind = .schemaResolution) ∨
    ∃ id failure, frame.ComesTo context id ∧ frame.state.memo.find? id = some failure ∧
      failure.succeeded = false

/-- The answer of a stage is a failure, though nothing gathered before it had failed. -/
def Stage.Fails {kind : StageKind} : Stage kind → kind.Answer → Prop
  | .atNode _ _ _, resolution => resolution.succeeded = false
  | .atSchema _ _ _, resolution => resolution.succeeded = false
  | .atMembers _ _ _ _ result, answer =>
    result.succeeded = true ∧ ∃ members, answer = some members ∧ members.succeeded = false
  | .atProperties _ _ _ result, answer => result.succeeded = true ∧ answer.succeeded = false
  | .atObject _ _, done => done = false
  | .atArray _ _, done => done = false

/-- Whatever fails between the state of a frame and a later one has a cause: the answer of the
frame, and each component that is finished with failure meanwhile. -/
structure Frame.Justified (context : Context) (frame : Frame) (answer : frame.kind.Answer)
    (after : ResolverState) : Prop where
  answer : frame.stage.Fails answer → frame.HasCause context after
  memo : ∀ id failure, after.memo.find? id = some failure → failure.succeeded = false →
    frame.state.memo.find? id = some failure ∨ frame.HasCause context after

namespace Frame.HasCause

variable {context : Context} {caller callee frame : Frame} {after after' : ResolverState}

/-- A diagnostic about a schema that is recorded at once is a cause. -/
theorem of_record {diagnostic : Diagnostic} (h : diagnostic.kind = .schemaResolution) :
    frame.HasCause context (frame.state.record diagnostic) :=
  .inl ⟨diagnostic, by simp [ResolverState.recordedSince], h⟩

/-- A cause remains. -/
theorem mono (h : frame.HasCause context after) (hgrows : frame.state.Grows after)
    (hgrows' : after.Grows after') : frame.HasCause context after' := by
  refine h.imp_left ?_
  rintro ⟨diagnostic, hmem, hkind⟩
  refine ⟨diagnostic, ?_, hkind⟩
  rw [ResolverState.recordedSince_trans hgrows hgrows']
  exact List.mem_append_left _ hmem

/-- The cause of a frame that begins when another has called it is a cause for the other. -/
theorem of_call (h : callee.HasCause context after) (hcall : Calls context caller callee)
    (hdiagnostics : callee.state.diagnostics = caller.state.diagnostics)
    (hmemo : callee.state.memo = caller.state.memo) : caller.HasCause context after := by
  rcases h with ⟨diagnostic, hmem, hkind⟩ | ⟨id, failure, hcomes, hfind, hfailed⟩
  · rw [ResolverState.recordedSince_congr hdiagnostics] at hmem
    exact .inl ⟨diagnostic, hmem, hkind⟩
  · obtain ⟨active, target, hint, nullable, state, hcalls, hlast⟩ := hcomes
    rw [hmemo] at hfind
    exact .inr ⟨id, failure, ⟨active, target, hint, nullable, state, .head hcall hcalls, hlast⟩,
      hfind, hfailed⟩

/-- The cause of a frame that is called after another part is a cause for the caller, if whatever
failed in the other part has one. -/
theorem of_later_call (h : callee.HasCause context after) (hcall : Calls context caller callee)
    (hgrows : caller.state.Grows callee.state) (hgrows' : callee.state.Grows after)
    (hmemo : ∀ id failure, callee.state.memo.find? id = some failure → failure.succeeded = false →
      caller.state.memo.find? id = some failure ∨ caller.HasCause context callee.state) :
    caller.HasCause context after := by
  rcases h with ⟨diagnostic, hmem, hkind⟩ | ⟨id, failure, hcomes, hfind, hfailed⟩
  · refine .inl ⟨diagnostic, ?_, hkind⟩
    rw [ResolverState.recordedSince_trans hgrows hgrows']
    exact List.mem_append_right _ hmem
  · rcases hmemo id failure hfind hfailed with hfind | hcause
    · obtain ⟨active, target, hint, nullable, state, hcalls, hlast⟩ := hcomes
      exact .inr ⟨id, failure, ⟨active, target, hint, nullable, state, .head hcall hcalls, hlast⟩,
        hfind, hfailed⟩
    · exact hcause.mono hgrows hgrows'

end Frame.HasCause

/-! ## Whatever fails has a cause -/

namespace Frame.Justified

variable {context : Context} {caller callee : Frame}

/-- A frame that leaves the memo alone is justified if its failure has a cause. -/
theorem of_memo_eq {frame : Frame} {answer : frame.kind.Answer} {after : ResolverState}
    (hmemo : after.memo = frame.state.memo)
    (h : frame.stage.Fails answer → frame.HasCause context after) :
    frame.Justified context answer after :=
  ⟨h, fun _ _ hfind _ => .inl (hmemo ▸ hfind)⟩

/-- A frame is justified if the one that it calls is, whose failures it takes over. -/
theorem of_call {answer : caller.kind.Answer} {answer' : callee.kind.Answer}
    {after after' : ResolverState}
    (h : callee.Justified context answer' after) (hcall : Calls context caller callee)
    (hdiagnostics : callee.state.diagnostics = caller.state.diagnostics)
    (hmemo : callee.state.memo = caller.state.memo)
    (hfails : caller.stage.Fails answer → callee.stage.Fails answer')
    (hdiagnostics' : after'.diagnostics = after.diagnostics) (hmemo' : after'.memo = after.memo) :
    caller.Justified context answer after' := by
  have hafter : ∀ {frame : Frame}, frame.HasCause context after →
      frame.HasCause context after' := by
    intro frame hcause
    simpa only [Frame.HasCause, ResolverState.recordedSince, hdiagnostics'] using hcause
  refine ⟨fun hf => hafter ((h.answer (hfails hf)).of_call hcall hdiagnostics hmemo), ?_⟩
  intro id failure hfind hfailed
  rw [hmemo'] at hfind
  rw [← hmemo]
  exact (h.memo id failure hfind hfailed).imp_right fun hcause =>
    hafter (hcause.of_call hcall hdiagnostics hmemo)

/-- A frame that calls two others, one after the other, is justified if both are and each of its
failures is one of theirs. -/
theorem of_calls {first second : Frame} {answer : caller.kind.Answer}
    {answer₁ : first.kind.Answer} {answer₂ : second.kind.Answer} {after : ResolverState}
    (h₁ : first.Justified context answer₁ second.state)
    (h₂ : second.Justified context answer₂ after)
    (hfirst : Calls context caller first) (hsecond : Calls context caller second)
    (hdiagnostics : first.state.diagnostics = caller.state.diagnostics)
    (hmemo : first.state.memo = caller.state.memo)
    (hgrows₁ : caller.state.Grows second.state) (hgrows₂ : second.state.Grows after)
    (hfails : caller.stage.Fails answer →
      first.stage.Fails answer₁ ∨ second.stage.Fails answer₂) :
    caller.Justified context answer after := by
  have hmiddle : ∀ id failure, second.state.memo.find? id = some failure →
      failure.succeeded = false →
      caller.state.memo.find? id = some failure ∨ caller.HasCause context second.state := by
    intro id failure hfind hfailed
    rw [← hmemo]
    exact (h₁.memo id failure hfind hfailed).imp_right fun hcause =>
      hcause.of_call hfirst hdiagnostics hmemo
  refine ⟨fun hf => ?_, fun id failure hfind hfailed => ?_⟩
  · rcases hfails hf with hf | hf
    · exact ((h₁.answer hf).of_call hfirst hdiagnostics hmemo).mono hgrows₁ hgrows₂
    · exact (h₂.answer hf).of_later_call hsecond hgrows₁ hgrows₂ hmiddle
  · rcases h₂.memo id failure hfind hfailed with hfind | hcause
    · exact (hmiddle id failure hfind hfailed).imp_right fun hcause => hcause.mono hgrows₁ hgrows₂
    · exact .inr (hcause.of_later_call hsecond hgrows₁ hgrows₂ hmiddle)

end Frame.Justified

/-- **Whatever fails has a cause**, unless the extraction is cancelled.

**Proof sketch.** Induction on the run. What fails by itself records a diagnostic, or comes back to
a component that had failed; other failures are those of parts, one after the other, and a component
that a later part comes back to had failed before all of them or has a cause itself. -/
theorem Runs.hasCause {context : Context} {kind : StageKind} {active : List ModelName}
    {stage : Stage kind} {state state' : ResolverState} {answer : kind.Answer}
    (h : Runs context active stage state answer state') (hend : state'.cancelled = false) :
    (Frame.mk active stage state).Justified context answer state' := by
  induction h with
  | cancelled hcancelled =>
    rw [hcancelled] at hend
    cases hend
  | inline hcancelled _ ih => exact (ih hend).of_call (.inl (.inline hcancelled)) rfl rfl id rfl rfl
  | refused | missing | untyped | noItems | anyItems =>
    exact .of_memo_eq rfl fun _ => .of_record rfl
  | @finished active target hint nullable id resolution state hcancelled hname hmemo =>
    exact .of_memo_eq rfl fun hfailed =>
      .inr ⟨id, resolution, ⟨_, _, _, _, _, .refl, hcancelled, hname⟩, hmemo, hfailed⟩
  | busy | noObject | knownObject | noArray | knownArray => exact .of_memo_eq rfl fun h => nomatch h
  | @entered active target hint nullable id schema state resolution state' hcancelled hname hmemo
      hactive hfound _ ih =>
    rw [ResolverState.cancelled_memoise] at hend
    have hcall : Calls context ⟨active, .atNode (.reference target) hint nullable, state⟩ _ :=
      .inr ⟨id, .enter hcancelled hname hmemo hactive hfound⟩
    have hafter : ∀ {frame : Frame}, frame.HasCause context state' →
        frame.HasCause context (state'.memoise id resolution) := by
      intro frame hcause
      simpa only [Frame.HasCause, ResolverState.recordedSince,
        ResolverState.diagnostics_memoise] using hcause
    have hfails : resolution.succeeded = false → Frame.HasCause context
        ⟨active, .atNode (.reference target) hint nullable, state⟩ (state'.memoise id resolution) :=
      fun hfailed => hafter (((ih hend).answer hfailed).of_call hcall rfl rfl)
    refine ⟨hfails, fun other failure hfind hfailed => ?_⟩
    rcases ResolverState.find?_memoise_cases hfind with hfind | ⟨-, rfl⟩
    · exact ((ih hend).memo other failure hfind hfailed).imp_right fun hcause =>
        hafter (hcause.of_call hcall rfl rfl)
    · exact .inr (hfails hfailed)
  | composed hshape hoffered _ ih =>
    refine (ih ((ResolverState.Grows.register _ _ _).not_cancelled hend)).of_call
      (.inl (.members hshape hoffered)) rfl rfl ?_ rfl rfl
    exact fun hfailed => ⟨rfl, _, rfl, hfailed⟩
  | abandoned _ _ hmembers =>
    rw [hmembers.cancelled_of_none] at hend
    cases hend
  | typed hshape htypes hobject harray ihObject ihArray =>
    refine (ihObject (harray.grows.not_cancelled hend)).of_calls (ihArray hend)
      (.inl (.object hshape htypes)) (.inl (.array hshape htypes hobject)) (by simp) (by simp)
      ((ResolverState.Grows.registerAll _ _ _).trans hobject.grows) harray.grows ?_
    exact fun hfailed => Bool.and_eq_false_iff.1 hfailed
  | allMembers =>
    refine .of_memo_eq rfl ?_
    rintro ⟨hbefore, members, hmembers, hfailed⟩
    cases hmembers
    rw [hbefore] at hfailed
    cases hfailed
  | membersLeft hcancelled =>
    rw [hcancelled] at hend
    cases hend
  | nextMember hcancelled hfirst hrest ihFirst ihRest =>
    refine (ihFirst (hrest.grows.not_cancelled hend)).of_calls (ihRest hend)
      (.inl (.member hcancelled)) (.inl (.otherMembers hcancelled hfirst)) rfl rfl hfirst.grows
      hrest.grows ?_
    rintro ⟨hbefore, hfailed⟩
    show _ = false ∨ (MemberResult.succeeded _ = true ∧ _)
    rw [MemberResult.succeeded_add, hbefore, Bool.true_and]
    rename_i resolution _ _ _
    cases resolution.succeeded with
    | false => exact .inl rfl
    | true => exact .inr ⟨rfl, hfailed⟩
  | allProperties =>
    refine .of_memo_eq rfl ?_
    rintro ⟨hbefore, hfailed⟩
    rw [hbefore] at hfailed
    cases hfailed
  | nextProperty hfirst hrest ihFirst ihRest =>
    refine (ihFirst (hrest.grows.not_cancelled hend)).of_calls (ihRest hend)
      (.inl .property) (.inl (.otherProperties hfirst)) rfl rfl hfirst.grows hrest.grows ?_
    rintro ⟨hbefore, hfailed⟩
    show _ = false ∨ (PropertyResult.succeeded _ = true ∧ _)
    rw [PropertyResult.succeeded_add, hbefore, Bool.true_and]
    rename_i resolution _ _ _
    cases resolution.succeeded with
    | false => exact .inl rfl
    | true => exact .inr ⟨rfl, hfailed⟩
  | lostObject _ _ _ hcancelled =>
    rw [hcancelled] at hend
    cases hend
  | object hcalled hknown _ hcancelled ih =>
    exact (ih hcancelled).of_call (.inl (.properties hcalled hknown)) rfl rfl
      (fun hfailed => ⟨rfl, hfailed⟩) rfl rfl
  | lostArray hcalled hknown hitems _ hfailed ih =>
    exact (ih hend).of_call (.inl (.items hcalled hknown hitems)) rfl rfl (fun _ => hfailed) rfl rfl
  | array hcalled hknown hitems _ hsucceeded ih =>
    exact (ih ((ResolverState.Grows.register _ _ _).not_cancelled hend)).of_call
      (.inl (.items hcalled hknown hitems)) rfl rfl (fun h => nomatch h) rfl rfl

end ApiCatalog
