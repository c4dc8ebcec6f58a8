import ApiCatalog.Proofs.Resolution.Entrances
import Mathlib.Data.Finset.Basic
import Mathlib.Data.Finset.Dedup
import Mathlib.Logic.Relation

set_option autoImplicit false

/-!
# A resolver that may be stopped at any time

The extraction may be cancelled from outside while a resolver is at work, and the resolver keeps
book of the components that it is resolving. This module looks at resolutions with all of that: the
components in progress are part of the state, are put in and taken out again, and the extraction
may be cancelled before and after every stage of the walk. Registrations and diagnostics do not
depend on that, so that nothing is lost if it is not looked for between two of them.

## Main definitions

* `ApiCatalog.OpenState`: the state of a resolver at work.
* `ApiCatalog.OpenRuns`: a stage answers, with all the states that are passed through.
* `ApiCatalog.Throughout`: what holds of all of them.
* `Call.Performs`: a call to a resolver is answered.
* `OpenState.ComesTo`: a state that is passed through later, between calls or within one.

## Main results

* `Runs.opens`, `OpenRuns.runs`: without cancellation from outside these are the runs of the walk.
* `Request.performs`, `Call.Performs.perform`: the same for calls.
* `OpenRuns.passes`: what every stage keeps, wherever it is interrupted.
* `ApiCatalog.calls_of_reached`: what calls keep, and what becomes of finished components.
-/

namespace ApiCatalog

/-! ## Resolvers at work -/

/-- A resolver at work: its state, and the components that it is resolving. -/
structure OpenState where
  resolver : ResolverState
  inProgress : Finset ModelName := ∅

namespace OpenState

/-- A resolver whose state has changed. -/
def put (state : OpenState) (resolver : ResolverState) : OpenState :=
  { state with resolver }

/-- The extraction is cancelled from outside. -/
def cancel (state : OpenState) : OpenState :=
  state.put { state.resolver with cancelled := true }

/-- A component is in progress. -/
def enter (state : OpenState) (id : ModelName) : OpenState :=
  { state with inProgress := insert id state.inProgress }

/-- A component is not in progress any more. -/
def leave (state : OpenState) (id : ModelName) : OpenState :=
  { state with inProgress := state.inProgress.erase id }

/-- A model is registered. -/
def register (cancelAt : Option Nat) (state : OpenState) (model : Model) : OpenState :=
  state.put (state.resolver.register cancelAt model)

/-- Models are registered one after another. -/
def registerAll (cancelAt : Option Nat) (state : OpenState) (models : List Model) : OpenState :=
  state.put (state.resolver.registerAll cancelAt models)

/-- A diagnostic is recorded. -/
def record (state : OpenState) (diagnostic : Diagnostic) : OpenState :=
  state.put (state.resolver.record diagnostic)

/-- A component is finished, unless the extraction was cancelled. -/
def memoise (state : OpenState) (id : ModelName) (resolution : Resolution) : OpenState :=
  state.put (state.resolver.memoise id resolution)

/-- The states that are passed through while models are registered. -/
def registrations (cancelAt : Option Nat) : OpenState → List Model → List OpenState
  | _, [] => []
  | state, model :: rest =>
    state.register cancelAt model :: registrations cancelAt (state.register cancelAt model) rest

end OpenState

/-- A stage, begun in one state, answers and ends in another; in between it passes through a trail
of states. The extraction may be cancelled from outside before and after it, and so in between. -/
inductive OpenRuns (context : Context) : {kind : StageKind} →
    Stage kind → OpenState → kind.Answer → List OpenState → OpenState → Prop where
  /-- The extraction is cancelled before the stage. -/
  | cancelBefore {kind : StageKind} {stage : Stage kind} {begun answer trail ended} :
      OpenRuns context stage begun.cancel answer trail ended →
      OpenRuns context stage begun answer (begun.cancel :: trail) ended
  /-- The extraction is cancelled after the stage. -/
  | cancelAfter {kind : StageKind} {stage : Stage kind} {begun answer trail ended} :
      OpenRuns context stage begun answer trail ended →
      OpenRuns context stage begun answer (trail ++ [ended.cancel]) ended.cancel
  /-- Nothing is resolved any more. -/
  | cancelled {node hint nullable begun} :
      begun.resolver.cancelled = true →
      OpenRuns context (.atNode node hint nullable) begun .failed [] begun
  /-- A schema that is written in place. -/
  | inline {schema hint nullable begun resolution trail ended} :
      begun.resolver.cancelled = false →
      OpenRuns context (.atSchema schema hint nullable) begun resolution trail ended →
      OpenRuns context (.atNode (.inline schema) hint nullable) begun resolution trail ended
  /-- A reference that names no component of the document. -/
  | refused {target hint nullable begun} :
      begun.resolver.cancelled = false →
      componentName target = .ok none →
      OpenRuns context (.atNode (.reference target) hint nullable) begun .failed
        [begun.record (.unresolvedReference hint target "not an internal component reference")]
        (begun.record (.unresolvedReference hint target "not an internal component reference"))
  /-- A reference to a component that was resolved before. -/
  | finished {target hint nullable id resolution begun} :
      begun.resolver.cancelled = false →
      componentName target = .ok (some id) →
      begun.resolver.memo.find? id = some resolution →
      OpenRuns context (.atNode (.reference target) hint nullable) begun resolution [] begun
  /-- A reference back to a component that is in progress. -/
  | busy {target hint nullable id begun} :
      begun.resolver.cancelled = false →
      componentName target = .ok (some id) →
      begun.resolver.memo.find? id = none →
      id ∈ begun.inProgress →
      OpenRuns context (.atNode (.reference target) hint nullable) begun (.single id true) [] begun
  /-- A reference that leads nowhere. -/
  | missing {target hint nullable id error begun} :
      begun.resolver.cancelled = false →
      componentName target = .ok (some id) →
      begun.resolver.memo.find? id = none →
      id ∉ begun.inProgress →
      context.document.findSchema target = .ok (.error error) →
      OpenRuns context (.atNode (.reference target) hint nullable) begun .failed
        [begun.record (.unresolvedReference hint target error.message)]
        (begun.record (.unresolvedReference hint target error.message))
  /-- A reference to a component that is resolved now. -/
  | entered {target hint nullable id schema begun resolution trail ended} :
      begun.resolver.cancelled = false →
      componentName target = .ok (some id) →
      begun.resolver.memo.find? id = none →
      id ∉ begun.inProgress →
      context.document.findSchema target = .ok (.ok schema) →
      OpenRuns context (.atSchema schema id false) (begun.enter id) resolution trail ended →
      OpenRuns context (.atNode (.reference target) hint nullable) begun resolution
        (begun.enter id :: trail ++ [ended.leave id, (ended.leave id).memoise id resolution])
        ((ended.leave id).memoise id resolution)
  /-- A composition whose members are all resolved. -/
  | composed {schema hint nullable kind members offered begun result trail ended} :
      schema.composition? = some (kind, members) →
      offersNull context.document kind members = .ok offered →
      OpenRuns context (.atMembers offered members hint 0 {}) begun (some result) trail ended →
      OpenRuns context (.atSchema schema hint nullable) begun (.single hint result.succeeded)
        (trail ++ [ended.register context.cancelAt (.composition hint kind result.references)])
        (ended.register context.cancelAt (.composition hint kind result.references))
  /-- A composition whose members are not all resolved. -/
  | abandoned {schema hint nullable kind members offered begun trail ended} :
      schema.composition? = some (kind, members) →
      offersNull context.document kind members = .ok offered →
      OpenRuns context (.atMembers offered members hint 0 {}) begun none trail ended →
      OpenRuns context (.atSchema schema hint nullable) begun (.single hint false) trail ended
  /-- A schema that says nothing. -/
  | untyped {schema hint nullable begun} :
      schema.composition? = none →
      schema.types.isEmpty = true →
      OpenRuns context (.atSchema schema hint nullable) begun .failed
        [begun.record (.missingType hint)] (begun.record (.missingType hint))
  /-- A schema that is resolved by its types. -/
  | typed {schema hint nullable begun objectDone trail₁ middle arrayDone trail₂ ended} :
      schema.composition? = none →
      schema.types.isEmpty = false →
      OpenRuns context (.atObject schema hint)
        (begun.registerAll context.cancelAt (schema.flatModels hint nullable)) objectDone trail₁
        middle →
      OpenRuns context (.atArray schema hint) middle arrayDone trail₂ ended →
      OpenRuns context (.atSchema schema hint nullable) begun
        ⟨schema.references hint nullable, objectDone && arrayDone⟩
        (begun.registrations context.cancelAt (schema.flatModels hint nullable) ++
          (trail₁ ++ trail₂)) ended
  /-- No member is left. -/
  | allMembers {offered hint index result begun} :
      OpenRuns context (.atMembers offered [] hint index result) begun (some result) [] begun
  /-- A member is left, but nothing is resolved any more. -/
  | membersLeft {offered member rest hint index result begun} :
      begun.resolver.cancelled = true →
      OpenRuns context (.atMembers offered (member :: rest) hint index result) begun none [] begun
  /-- One member, then the others. -/
  | nextMember {offered member rest hint index result begun resolution trail₁ middle answer trail₂
      ended} :
      begun.resolver.cancelled = false →
      OpenRuns context
        (.atNode member (Naming.member hint index) (offered && member.isSingleNonNull)) begun
        resolution trail₁ middle →
      OpenRuns context (.atMembers offered rest hint (index + 1) (result.add resolution)) middle
        answer trail₂ ended →
      OpenRuns context (.atMembers offered (member :: rest) hint index result) begun answer
        (trail₁ ++ trail₂) ended
  /-- No property is left. -/
  | allProperties {required hint result begun} :
      OpenRuns context (.atProperties required [] hint result) begun result [] begun
  /-- One property, then the others. -/
  | nextProperty {required name node rest hint result begun resolution trail₁ middle answer trail₂
      ended} :
      OpenRuns context (.atNode node (Naming.property hint name) false) begun resolution trail₁
        middle →
      OpenRuns context
        (.atProperties required rest hint (result.add required name resolution)) middle answer
        trail₂ ended →
      OpenRuns context (.atProperties required ((name, node) :: rest) hint result) begun answer
        (trail₁ ++ trail₂) ended
  /-- No object is called for. -/
  | noObject {schema hint begun} :
      schema.types.contains .object = false →
      OpenRuns context (.atObject schema hint) begun true [] begun
  /-- The name of the object is taken. -/
  | knownObject {schema hint begun} :
      schema.types.contains .object = true →
      begun.resolver.repository.contains hint = true →
      OpenRuns context (.atObject schema hint) begun true [] begun
  /-- The properties are resolved, but nothing is registered any more. -/
  | lostObject {schema hint begun result trail ended} :
      schema.types.contains .object = true →
      begun.resolver.repository.contains hint = false →
      OpenRuns context (.atProperties schema.required schema.properties hint {}) begun result trail
        ended →
      ended.resolver.cancelled = true →
      OpenRuns context (.atObject schema hint) begun false trail ended
  /-- The properties are resolved, and the object is registered. -/
  | object {schema hint begun result trail ended} :
      schema.types.contains .object = true →
      begun.resolver.repository.contains hint = false →
      OpenRuns context (.atProperties schema.required schema.properties hint {}) begun result trail
        ended →
      ended.resolver.cancelled = false →
      OpenRuns context (.atObject schema hint) begun result.succeeded
        (trail ++ [ended.register context.cancelAt (.object hint result.properties)])
        (ended.register context.cancelAt (.object hint result.properties))
  /-- No array is called for. -/
  | noArray {schema hint begun} :
      schema.types.contains .array = false →
      OpenRuns context (.atArray schema hint) begun true [] begun
  /-- The name of the array is taken. -/
  | knownArray {schema hint begun} :
      schema.types.contains .array = true →
      begun.resolver.repository.contains hint = true →
      OpenRuns context (.atArray schema hint) begun true [] begun
  /-- Nothing is said about the items. -/
  | noItems {schema hint begun} :
      schema.types.contains .array = true →
      begun.resolver.repository.contains hint = false →
      schema.items = none →
      OpenRuns context (.atArray schema hint) begun false
        [begun.record (.missingArrayItems hint)] (begun.record (.missingArrayItems hint))
  /-- The items are anything, or nothing. -/
  | anyItems {schema hint allowed begun} :
      schema.types.contains .array = true →
      begun.resolver.repository.contains hint = false →
      schema.items = some (.always allowed) →
      OpenRuns context (.atArray schema hint) begun false
        [begun.record (.booleanSchema (Naming.arrayItem hint))]
        (begun.record (.booleanSchema (Naming.arrayItem hint)))
  /-- The items are not resolved. -/
  | lostArray {schema hint node begun resolution trail ended} :
      schema.types.contains .array = true →
      begun.resolver.repository.contains hint = false →
      schema.items = some (.each node) →
      OpenRuns context (.atNode node (Naming.arrayItem hint) false) begun resolution trail ended →
      resolution.succeeded = false →
      OpenRuns context (.atArray schema hint) begun false trail ended
  /-- The items are resolved, and the array is registered. -/
  | array {schema hint node begun resolution trail ended} :
      schema.types.contains .array = true →
      begun.resolver.repository.contains hint = false →
      schema.items = some (.each node) →
      OpenRuns context (.atNode node (Naming.arrayItem hint) false) begun resolution trail ended →
      resolution.succeeded = true →
      OpenRuns context (.atArray schema hint) begun true
        (trail ++ [ended.register context.cancelAt (.array hint resolution.references)])
        (ended.register context.cancelAt (.array hint resolution.references))

/-! ## Trails -/

/-- At every moment of a trail, and at its end, something holds of the state of the resolver. -/
def Throughout (good : ResolverState → Prop) (trail : List OpenState) (ended : OpenState) : Prop :=
  ∀ moment ∈ trail ++ [ended], good moment.resolver

namespace Throughout

variable {good good' : ResolverState → Prop} {begun middle ended : OpenState}
  {trail trail' : List OpenState}

/-- Nothing is done. -/
theorem nothing (h : good ended.resolver) : Throughout good [] ended :=
  fun _ hmoment => List.mem_singleton.1 hmoment ▸ h

/-- One change. -/
theorem change (h : good ended.resolver) : Throughout good [ended] ended := by
  intro moment hmoment
  obtain rfl : moment = ended := by simpa using hmoment
  exact h

/-- The end of a trail. -/
theorem last (h : Throughout good trail ended) : good ended.resolver :=
  h ended (List.mem_append_right _ List.mem_cons_self)

/-- One trail after another. -/
theorem append (h : Throughout good trail middle) (h' : Throughout good trail' ended) :
    Throughout good (trail ++ trail') ended := by
  intro moment hmoment
  rw [List.append_assoc] at hmoment
  rcases List.mem_append.1 hmoment with hbefore | hafter
  · exact h moment (List.mem_append_left _ hbefore)
  · exact h' moment hafter

/-- Less may be asked for. -/
theorem mono (h : Throughout good trail ended) (hall : ∀ state, good state → good' state) :
    Throughout good' trail ended :=
  fun moment hmoment => hall _ (h moment hmoment)

/-- Registrations one after another. -/
theorem registerAll {cancelAt : Option Nat} {models : List Model}
    (hregister : ∀ {state : ResolverState}, ∀ model ∈ models, good state →
      good (state.register cancelAt model)) (h : good begun.resolver) :
    Throughout good (begun.registrations cancelAt models) (begun.registerAll cancelAt models) := by
  induction models generalizing begun with
  | nil => exact nothing h
  | cons model rest ih =>
    have hfirst : good (begun.register cancelAt model).resolver :=
      hregister model List.mem_cons_self h
    exact (change hfirst).append
      (ih (fun other hother => hregister other (List.mem_cons_of_mem _ hother)) hfirst)

/-- A component is entered and left. -/
theorem component {id : ModelName} {resolution : Resolution} (hbegun : good begun.resolver)
    (h : Throughout good trail ended) (hmemoise : good (ended.resolver.memoise id resolution)) :
    Throughout good
      (begun.enter id :: trail ++ [ended.leave id, (ended.leave id).memoise id resolution])
      ((ended.leave id).memoise id resolution) := by
  have hentered : Throughout good [begun.enter id] (begun.enter id) := change hbegun
  have hleft : Throughout good [ended.leave id] (ended.leave id) := change h.last
  have hfinished : Throughout good [(ended.leave id).memoise id resolution]
      ((ended.leave id).memoise id resolution) := change hmemoise
  exact (hentered.append h).append (hleft.append hfinished)

end Throughout

/-! ## What is kept -/

/-- One state comes before another, and no component is finished once the extraction is
cancelled. -/
structure OpenState.Later (state state' : OpenState) : Prop where
  grows : state.resolver.Grows state'.resolver
  frozen : state.resolver.cancelled = true → state'.resolver.memo = state.resolver.memo

namespace OpenState.Later

variable {state state₁ state₂ : OpenState}

/-- A state comes before itself. -/
theorem refl (state : OpenState) : state.Later state :=
  ⟨.refl _, fun _ => rfl⟩

/-- Later than later is later. -/
theorem trans (h₁ : state.Later state₁) (h₂ : state₁.Later state₂) : state.Later state₂ :=
  ⟨h₁.grows.trans h₂.grows, fun hcancelled =>
    (h₂.frozen (h₁.grows.cancelled hcancelled)).trans (h₁.frozen hcancelled)⟩

/-- A change that leaves the memo alone leads to a later state. -/
theorem of_memo_eq {resolver : ResolverState} (hgrows : state.resolver.Grows resolver)
    (hmemo : resolver.memo = state.resolver.memo) : state.Later (state.put resolver) :=
  ⟨hgrows, fun _ => hmemo⟩

/-- A cancellation leads to a later state. -/
theorem cancel (state : OpenState) : state.Later state.cancel :=
  of_memo_eq ⟨List.prefix_rfl, List.prefix_rfl, fun _ _ => id, fun _ => rfl⟩ rfl

/-- A state is later after a component is finished that was not finished before. -/
theorem memoise {id : ModelName} {resolution : Resolution}
    (hnew : state.resolver.memo.find? id = none) : state.Later (state.memoise id resolution) := by
  refine ⟨(ResolverState.Grows.refl _).memoise hnew, fun hcancelled => ?_⟩
  show (state.resolver.memoise id resolution).memo = _
  rw [ResolverState.memoise, if_pos hcancelled]

end OpenState.Later

/-- What is kept on the way from one state to another: whatever is passed through comes in between,
the components in progress are the same at the end, and none of them is finished meanwhile. -/
structure Passes (begun : OpenState) (trail : List OpenState) (ended : OpenState) : Prop where
  later : begun.Later ended
  moments : ∀ moment ∈ trail, begun.Later moment ∧ moment.Later ended
  inProgress : ended.inProgress = begun.inProgress
  unfinished : ∀ id ∈ begun.inProgress, begun.resolver.memo.find? id = none →
    ended.resolver.memo.find? id = none

namespace Passes

variable {begun middle ended : OpenState} {trail trail' : List OpenState}

/-- Nothing is done. -/
theorem nothing (state : OpenState) : Passes state [] state :=
  ⟨.refl _, fun _ hmoment => absurd hmoment List.not_mem_nil, rfl, fun _ _ hnew => hnew⟩

/-- One change that leaves the memo alone. -/
theorem change {resolver : ResolverState} (hgrows : begun.resolver.Grows resolver)
    (hmemo : resolver.memo = begun.resolver.memo) :
    Passes begun [begun.put resolver] (begun.put resolver) := by
  have hlater : begun.Later (begun.put resolver) := .of_memo_eq hgrows hmemo
  refine ⟨hlater, fun moment hmoment => ?_, rfl, fun id _ hnew => hmemo ▸ hnew⟩
  obtain rfl := List.mem_singleton.1 hmoment
  exact ⟨hlater, .refl _⟩

/-- One way after another. -/
theorem append (h : Passes begun trail middle) (h' : Passes middle trail' ended) :
    Passes begun (trail ++ trail') ended where
  later := h.later.trans h'.later
  moments := by
    intro moment hmoment
    rcases List.mem_append.1 hmoment with hmoment | hmoment
    · obtain ⟨hbefore, hafter⟩ := h.moments moment hmoment
      exact ⟨hbefore, hafter.trans h'.later⟩
    · obtain ⟨hbefore, hafter⟩ := h'.moments moment hmoment
      exact ⟨h.later.trans hbefore, hafter⟩
  inProgress := h'.inProgress.trans h.inProgress
  unfinished := fun id hid hnew =>
    h'.unfinished id (h.inProgress ▸ hid) (h.unfinished id hid hnew)

/-- A cancellation from outside. -/
theorem cancel (state : OpenState) : Passes state [state.cancel] state.cancel :=
  change (OpenState.Later.cancel state).grows rfl

/-- A registration. -/
theorem register (cancelAt : Option Nat) (state : OpenState) (model : Model) :
    Passes state [state.register cancelAt model] (state.register cancelAt model) :=
  change (.register _ _ _) rfl

/-- A diagnostic. -/
theorem record (state : OpenState) (diagnostic : Diagnostic) :
    Passes state [state.record diagnostic] (state.record diagnostic) :=
  change (.record _ _) rfl

/-- Registrations one after another. -/
theorem registerAll (cancelAt : Option Nat) (state : OpenState) (models : List Model) :
    Passes state (state.registrations cancelAt models) (state.registerAll cancelAt models) := by
  induction models generalizing state with
  | nil => exact nothing state
  | cons model rest ih =>
    exact (register cancelAt state model).append (ih (state.register cancelAt model))

/-- A component that was neither finished nor in progress is put in progress, and at the end it is
taken out again and finished, unless the extraction is cancelled by then. -/
theorem component {id : ModelName} {resolution : Resolution} (hfresh : id ∉ begun.inProgress)
    (hnew : begun.resolver.memo.find? id = none) (h : Passes (begun.enter id) trail ended) :
    Passes begun
      (begun.enter id :: trail ++ [ended.leave id, (ended.leave id).memoise id resolution])
      ((ended.leave id).memoise id resolution) := by
  have hunfinished : ended.resolver.memo.find? id = none :=
    h.unfinished id (Finset.mem_insert_self _ _) hnew
  -- entering and leaving do not touch the state of the resolver
  have hlast : ended.Later ((ended.leave id).memoise id resolution) := by
    have hlater : (ended.leave id).Later ((ended.leave id).memoise id resolution) :=
      .memoise hunfinished
    exact ⟨hlater.grows, hlater.frozen⟩
  have hall : begun.Later ended := ⟨h.later.grows, h.later.frozen⟩
  refine ⟨hall.trans hlast, fun moment hmoment => ?_, ?_, fun other hother hother' => ?_⟩
  · rcases List.mem_append.1 hmoment with hmoment | hmoment
    · rcases List.mem_cons.1 hmoment with rfl | hmoment
      · exact ⟨⟨.refl _, fun _ => rfl⟩, h.later.trans hlast⟩
      · obtain ⟨hbefore, hafter⟩ := h.moments moment hmoment
        exact ⟨⟨hbefore.grows, hbefore.frozen⟩, hafter.trans hlast⟩
    · rcases List.mem_cons.1 hmoment with rfl | hmoment
      · exact ⟨⟨hall.grows, hall.frozen⟩, ⟨hlast.grows, hlast.frozen⟩⟩
      · obtain rfl := List.mem_singleton.1 hmoment
        exact ⟨hall.trans hlast, .refl _⟩
  · show ended.inProgress.erase id = _
    rw [h.inProgress]
    exact Finset.erase_insert hfresh
  · have hne : id ≠ other := fun heq => hfresh (heq ▸ hother)
    have hstill := h.unfinished other (Finset.mem_insert_of_mem hother) hother'
    show (ended.resolver.memoise id resolution).memo.find? other = none
    rw [Option.eq_none_iff_forall_ne_some]
    intro found hfound
    rcases ResolverState.find?_memoise_cases hfound with hold | ⟨heq, -⟩
    · rw [hstill] at hold
      cases hold
    · exact hne heq.symm

end Passes

/-- **What every stage keeps, wherever it is interrupted.**

**Proof sketch.** Induction on the run: each rule is a change of its own, or puts ways together. A
component that is entered was not in progress, so that taking it out again restores what was; and
since it is in progress meanwhile, nothing inside finishes it. -/
theorem OpenRuns.passes {context : Context} {kind : StageKind} {stage : Stage kind}
    {begun ended : OpenState} {answer : kind.Answer} {trail : List OpenState}
    (h : OpenRuns context stage begun answer trail ended) : Passes begun trail ended := by
  induction h with
  | cancelBefore _ ih => exact (Passes.cancel _).append ih
  | cancelAfter _ ih => exact ih.append (.cancel _)
  | cancelled | finished | busy | allMembers | membersLeft | allProperties | noObject | knownObject
  | noArray | knownArray => exact .nothing _
  | refused | missing | untyped | noItems | anyItems => exact .record _ _
  | inline _ _ ih | abandoned _ _ _ ih | lostObject _ _ _ _ ih | lostArray _ _ _ _ _ ih => exact ih
  | entered _ _ hnew hfresh _ _ ih => exact ih.component hfresh hnew
  | composed _ _ _ ih | object _ _ _ _ ih | array _ _ _ _ _ ih => exact ih.append (.register _ _ _)
  | typed _ _ _ _ ihObject ihArray =>
    exact (Passes.registerAll _ _ _).append (ihObject.append ihArray)
  | nextMember _ _ _ ihFirst ihRest | nextProperty _ _ ihFirst ihRest =>
    exact ihFirst.append ihRest

/-! ## Runs that are not interrupted -/

section Uninterrupted

variable {context : Context} {kind : StageKind} {stage : Stage kind} {answer : kind.Answer}

/-- **Every run of the walk is one that might have been interrupted.**

**Proof sketch.** Induction on the run, rule by rule. -/
theorem Runs.opens {active : List ModelName} {state state' : ResolverState}
    (h : Runs context active stage state answer state') :
    ∃ trail, OpenRuns context stage ⟨state, active.toFinset⟩ answer trail
      ⟨state', active.toFinset⟩ := by
  induction h with
  | cancelled hcancelled => exact ⟨_, .cancelled hcancelled⟩
  | inline hlive _ ih =>
    obtain ⟨trail, hschema⟩ := ih
    exact ⟨_, .inline hlive hschema⟩
  | refused hlive hname => exact ⟨_, .refused hlive hname⟩
  | finished hlive hname hmemo => exact ⟨_, .finished hlive hname hmemo⟩
  | busy hlive hname hnew hactive =>
    exact ⟨_, .busy hlive hname hnew (List.mem_toFinset.2 hactive)⟩
  | missing hlive hname hnew hfresh hfound =>
    exact ⟨_, .missing hlive hname hnew (fun hid => hfresh (List.mem_toFinset.1 hid)) hfound⟩
  | @entered active target hint nullable id schema state resolution state' hlive hname hnew hfresh
      hfound _ ih =>
    obtain ⟨trail, hschema⟩ := ih
    have hfresh' : id ∉ active.toFinset := fun hid => hfresh (List.mem_toFinset.1 hid)
    rw [List.toFinset_cons] at hschema
    have hrun : OpenRuns context (.atNode (.reference target) hint nullable)
        ⟨state, active.toFinset⟩ resolution _ _ :=
      .entered hlive hname hnew hfresh' hfound hschema
    have hleft :
        ((OpenState.mk state' (insert id active.toFinset)).leave id).memoise id resolution =
          ⟨state'.memoise id resolution, active.toFinset⟩ := by
      show OpenState.mk _ ((insert id active.toFinset).erase id) = _
      rw [Finset.erase_insert hfresh']
      rfl
    exact ⟨_, hleft ▸ hrun⟩
  | composed hshape hoffered _ ih =>
    obtain ⟨trail, hmembers⟩ := ih
    exact ⟨_, .composed hshape hoffered hmembers⟩
  | abandoned hshape hoffered _ ih =>
    obtain ⟨trail, hmembers⟩ := ih
    exact ⟨_, .abandoned hshape hoffered hmembers⟩
  | untyped hshape htypes => exact ⟨_, .untyped hshape htypes⟩
  | typed hshape htypes _ _ ihObject ihArray =>
    obtain ⟨trail₁, hobject⟩ := ihObject
    obtain ⟨trail₂, harray⟩ := ihArray
    exact ⟨_, .typed hshape htypes hobject harray⟩
  | allMembers => exact ⟨_, .allMembers⟩
  | membersLeft hcancelled => exact ⟨_, .membersLeft hcancelled⟩
  | nextMember hlive _ _ ihFirst ihRest =>
    obtain ⟨trail₁, hfirst⟩ := ihFirst
    obtain ⟨trail₂, hrest⟩ := ihRest
    exact ⟨_, .nextMember hlive hfirst hrest⟩
  | allProperties => exact ⟨_, .allProperties⟩
  | nextProperty _ _ ihFirst ihRest =>
    obtain ⟨trail₁, hfirst⟩ := ihFirst
    obtain ⟨trail₂, hrest⟩ := ihRest
    exact ⟨_, .nextProperty hfirst hrest⟩
  | noObject hnone => exact ⟨_, .noObject hnone⟩
  | knownObject hcalled hknown => exact ⟨_, .knownObject hcalled hknown⟩
  | lostObject hcalled hfree _ hcancelled ih =>
    obtain ⟨trail, hproperties⟩ := ih
    exact ⟨_, .lostObject hcalled hfree hproperties hcancelled⟩
  | object hcalled hfree _ hlive ih =>
    obtain ⟨trail, hproperties⟩ := ih
    exact ⟨_, .object hcalled hfree hproperties hlive⟩
  | noArray hnone => exact ⟨_, .noArray hnone⟩
  | knownArray hcalled hknown => exact ⟨_, .knownArray hcalled hknown⟩
  | noItems hcalled hfree hitems => exact ⟨_, .noItems hcalled hfree hitems⟩
  | anyItems hcalled hfree hitems => exact ⟨_, .anyItems hcalled hfree hitems⟩
  | lostArray hcalled hfree hitems _ hfailed ih =>
    obtain ⟨trail, hnode⟩ := ih
    exact ⟨_, .lostArray hcalled hfree hitems hnode hfailed⟩
  | array hcalled hfree hitems _ hsucceeded ih =>
    obtain ⟨trail, hnode⟩ := ih
    exact ⟨_, .array hcalled hfree hitems hnode hsucceeded⟩

/-- **What ends without a cancellation is a run of the walk.**

**Proof sketch.** Induction on the run, rule by rule. A cancellation from outside is never taken
back, so there was none; and at the beginning of each part the components in progress are those of
the whole, since the parts before it have restored them. -/
theorem OpenRuns.runs {begun ended : OpenState} {trail : List OpenState}
    (h : OpenRuns context stage begun answer trail ended)
    (hlive : ended.resolver.cancelled = false) {active : List ModelName}
    (hactive : begun.inProgress = active.toFinset) :
    Runs context active stage begun.resolver answer ended.resolver := by
  induction h generalizing active with
  | cancelBefore h =>
    rw [h.passes.later.grows.cancelled rfl] at hlive
    cases hlive
  | cancelAfter => cases hlive
  | cancelled hcancelled => exact .cancelled hcancelled
  | inline hlive' _ ih => exact .inline hlive' (ih hlive hactive)
  | refused hlive' hname => exact .refused hlive' hname
  | finished hlive' hname hmemo => exact .finished hlive' hname hmemo
  | busy hlive' hname hnew hid =>
    exact .busy hlive' hname hnew (List.mem_toFinset.1 (hactive ▸ hid))
  | missing hlive' hname hnew hfresh hfound =>
    exact .missing hlive' hname hnew (fun hid => hfresh (hactive ▸ List.mem_toFinset.2 hid)) hfound
  | @entered target hint nullable id schema begun resolution trail ended hlive' hname hnew hfresh
      hfound hschema ih =>
    have hend : ended.resolver.cancelled = false :=
      (ResolverState.cancelled_memoise ended.resolver id resolution).symm.trans hlive
    refine .entered hlive' hname hnew (fun hid => hfresh (hactive ▸ List.mem_toFinset.2 hid)) hfound
      (ih hend ?_)
    rw [List.toFinset_cons, ← hactive]
    rfl
  | composed hshape hoffered _ ih =>
    exact .composed hshape hoffered
      (ih ((ResolverState.Grows.register _ _ _).not_cancelled hlive) hactive)
  | abandoned hshape hoffered _ ih => exact .abandoned hshape hoffered (ih hlive hactive)
  | untyped hshape htypes => exact .untyped hshape htypes
  | typed hshape htypes hobject harray ihObject ihArray =>
    refine .typed hshape htypes (ihObject (harray.passes.later.grows.not_cancelled hlive) hactive)
      (ihArray hlive ?_)
    exact hobject.passes.inProgress.trans hactive
  | allMembers => exact .allMembers
  | membersLeft hcancelled => exact .membersLeft hcancelled
  | nextMember hlive' hfirst hrest ihFirst ihRest =>
    exact .nextMember hlive' (ihFirst (hrest.passes.later.grows.not_cancelled hlive) hactive)
      (ihRest hlive (hfirst.passes.inProgress.trans hactive))
  | allProperties => exact .allProperties
  | nextProperty hfirst hrest ihFirst ihRest =>
    exact .nextProperty (ihFirst (hrest.passes.later.grows.not_cancelled hlive) hactive)
      (ihRest hlive (hfirst.passes.inProgress.trans hactive))
  | noObject hnone => exact .noObject hnone
  | knownObject hcalled hknown => exact .knownObject hcalled hknown
  | lostObject hcalled hfree _ hcancelled ih =>
    exact .lostObject hcalled hfree (ih hlive hactive) hcancelled
  | object hcalled hfree _ hlive' ih => exact .object hcalled hfree (ih hlive' hactive) hlive'
  | noArray hnone => exact .noArray hnone
  | knownArray hcalled hknown => exact .knownArray hcalled hknown
  | noItems hcalled hfree hitems => exact .noItems hcalled hfree hitems
  | anyItems hcalled hfree hitems => exact .anyItems hcalled hfree hitems
  | lostArray hcalled hfree hitems _ hfailed ih =>
    exact .lostArray hcalled hfree hitems (ih hlive hactive) hfailed
  | array hcalled hfree hitems _ hsucceeded ih =>
    exact .array hcalled hfree hitems
      (ih ((ResolverState.Grows.register _ _ _).not_cancelled hlive) hactive) hsucceeded

end Uninterrupted

/-! ## Calls -/

/-- What may happen to a resolver between two calls, and the calls themselves. -/
inductive Call where
  /-- Something is asked of it. -/
  | request (request : Request)
  /-- The extraction is cancelled from outside. -/
  | cancel

/-- A call to a resolver is answered; the extraction may be cancelled meanwhile. -/
inductive Call.Performs (context : Context) :
    Call → OpenState → Option Resolution → List OpenState → OpenState → Prop where
  /-- A schema is resolved. -/
  | schema {node hint begun resolution trail ended} :
      OpenRuns context (.atNode node hint false) begun resolution trail ended →
      Performs context (.request (.schema node hint)) begun (some resolution) trail ended
  /-- A component that is known is left alone. -/
  | known {id node begun} :
      begun.resolver.repository.contains id = true ∨ begun.resolver.memo.contains id = true →
      Performs context (.request (.component id node)) begun none [] begun
  /-- A component is resolved while it is in progress. -/
  | component {id node begun resolution trail ended} :
      begun.resolver.repository.contains id = false →
      begun.resolver.memo.contains id = false →
      OpenRuns context (.atNode node id false) (begun.enter id) resolution trail ended →
      Performs context (.request (.component id node)) begun (some resolution)
        (begun.enter id :: trail ++ [ended.leave id, (ended.leave id).memoise id resolution])
        ((ended.leave id).memoise id resolution)
  /-- A diagnostic is recorded. -/
  | record {diagnostic begun} :
      Performs context (.request (.record diagnostic)) begun none [begun.record diagnostic]
        (begun.record diagnostic)
  /-- The extraction is cancelled. -/
  | cancel {begun} : Performs context .cancel begun none [begun.cancel] begun.cancel

section Calls

variable {context : Context} {answer : Option Resolution}

/-- **What a resolver does at a request is a call that might have been interrupted.** -/
theorem Request.performs {request : Request} {state state' : ResolverState}
    (h : request.perform context state = .ok answer state') :
    ∃ trail, (Call.request request).Performs context ⟨state, ∅⟩ answer trail ⟨state', ∅⟩ := by
  cases request with
  | schema node hint =>
    obtain ⟨resolution, _, hresolve, hanswer⟩ := Resolver.bind_eq_ok_iff.1 h
    cases hanswer
    obtain ⟨trail, hrun⟩ := (runs_of_ok hresolve).opens
    exact ⟨trail, .schema hrun⟩
  | component id node =>
    rcases resolveComponent_ok h with ⟨hknown, rfl, rfl⟩ | ⟨resolution, s, hfree, hnew, rfl, hrun,
      rfl⟩
    · exact ⟨[], .known hknown⟩
    · obtain ⟨trail, hnode⟩ := hrun.opens
      have hcall : (Call.request (.component id node)).Performs context ⟨state, ∅⟩
          (some resolution) _ _ := .component hfree hnew hnode
      have hleft : ((OpenState.mk s [id].toFinset).leave id).memoise id resolution =
          ⟨s.memoise id resolution, ∅⟩ := by
        show OpenState.mk _ ([id].toFinset.erase id) = _
        rw [List.toFinset_cons, List.toFinset_nil, Finset.erase_insert (Finset.notMem_empty id)]
        rfl
      exact ⟨_, hleft ▸ hcall⟩
  | record diagnostic =>
    cases h
    exact ⟨_, .record⟩

/-- **A call that ends without a cancellation is what a resolver does at a request.** -/
theorem Call.Performs.perform {request : Request} {begun ended : OpenState}
    {trail : List OpenState}
    (h : (Call.request request).Performs context begun answer trail ended)
    (hidle : begun.inProgress = ∅) (hlive : ended.resolver.cancelled = false) :
    request.perform context begun.resolver = .ok answer ended.resolver := by
  cases h with
  | @schema node hint _ resolution =>
    rename_i hrun
    have hactive : begun.inProgress = ([] : List ModelName).toFinset := hidle
    exact perform_schema_iff.2 (hrun.runs hlive hactive)
  | known hknown => exact resolveComponent_of_known hknown
  | @component id node _ resolution trail ended hfree hnew hrun =>
    have hend : ended.resolver.cancelled = false :=
      (ResolverState.cancelled_memoise ended.resolver id resolution).symm.trans hlive
    have hactive : (begun.enter id).inProgress = [id].toFinset := by
      show insert id begun.inProgress = _
      rw [hidle]
      rfl
    exact resolveComponent_of_runs hfree hnew (hrun.runs hend hactive)
  | record => rfl

/-- What a call keeps, wherever it is interrupted, if no component is in progress before it. -/
theorem Call.Performs.passes {call : Call} {begun ended : OpenState} {trail : List OpenState}
    (h : call.Performs context begun answer trail ended) (hidle : begun.inProgress = ∅) :
    Passes begun trail ended := by
  cases h with
  | schema hrun => exact hrun.passes
  | known => exact .nothing _
  | component _ hnew hrun =>
    refine hrun.passes.component (by simp [hidle]) ?_
    simpa [OrderedMap.contains] using hnew
  | record => exact .record _ _
  | cancel => exact .cancel _

end Calls

/-! ## Sessions -/

/-- A call leads from one state to another. -/
def OpenState.Leads (context : Context) (begun ended : OpenState) : Prop :=
  ∃ (call : Call) (answer : Option Resolution) (trail : List OpenState),
    call.Performs context begun answer trail ended

/-- A state is come to after another: between two calls, or within one. -/
def OpenState.ComesTo (context : Context) (begun moment : OpenState) : Prop :=
  ∃ middle, Relation.ReflTransGen (OpenState.Leads context) begun middle ∧
    (moment = middle ∨ ∃ (call : Call) (answer : Option Resolution) (trail : List OpenState)
      (ended : OpenState), call.Performs context middle answer trail ended ∧ moment ∈ trail)

section Sessions

variable {context : Context} {begun ended moment : OpenState}

/-- Calls leave nothing in progress, and lead to later states. -/
theorem OpenState.later_of_calls (hidle : begun.inProgress = ∅)
    (h : Relation.ReflTransGen (OpenState.Leads context) begun ended) :
    ended.inProgress = ∅ ∧ begun.Later ended := by
  induction h with
  | refl => exact ⟨hidle, .refl _⟩
  | tail _ hcall ih =>
    obtain ⟨call, answer, trail, hcall⟩ := hcall
    have hpasses := hcall.passes ih.1
    exact ⟨hpasses.inProgress.trans ih.1, ih.2.trans hpasses.later⟩

/-- What is come to after a state is later. -/
theorem OpenState.ComesTo.later (hidle : begun.inProgress = ∅) (h : begun.ComesTo context moment) :
    begun.Later moment := by
  obtain ⟨middle, hcalls, hmoment⟩ := h
  obtain ⟨hidle', hlater⟩ := OpenState.later_of_calls hidle hcalls
  rcases hmoment with rfl | ⟨call, answer, trail, last, hcall, hmem⟩
  · exact hlater
  · exact hlater.trans ((hcall.passes hidle').moments moment hmem).1

/-- A reference to a component that is finished by the end was answered as it is finished, unless
the extraction was cancelled. -/
theorem Call.Performs.eq_of_memo {target : String} {hint id : ModelName}
    {resolution found : Resolution} {trail : List OpenState}
    (h : (Call.request (.schema (.reference target) hint)).Performs context begun (some resolution)
      trail ended)
    (hidle : begun.inProgress = ∅) (hlive : ended.resolver.cancelled = false)
    (hname : componentName target = .ok (some id))
    (hmemo : ended.resolver.memo.find? id = some found) : resolution = found := by
  have hactive : begun.inProgress = ([] : List ModelName).toFinset := hidle
  cases h with
  | schema hrun =>
    have hruns := hrun.runs hlive hactive
    generalize ended.resolver = after at hruns hlive hmemo
    cases hruns with
    | cancelled hcancelled =>
      rw [hlive] at hcancelled
      cases hcancelled
    | refused _ hnone =>
      rw [hname] at hnone
      cases hnone
    | finished _ hname' hmemo' =>
      cases hname.symm.trans hname'
      cases hmemo'.symm.trans hmemo
      rfl
    | busy _ _ _ hid => cases hid
    | missing _ hname' hnew =>
      cases hname.symm.trans hname'
      cases hnew.symm.trans hmemo
    | entered _ hname' _ _ _ _ =>
      cases hname.symm.trans hname'
      rw [ResolverState.cancelled_memoise] at hlive
      rw [ResolverState.find?_memoise hlive, if_pos rfl] at hmemo
      exact Option.some_inj.1 hmemo

/-- **What calls keep, and what becomes of finished components**, for every state that a resolver
comes to by calls, and every further call, wherever each of them is interrupted: models and
diagnostics only come after those that are there, nothing is left in progress, finished components
keep their resolutions, and none is finished once the extraction is cancelled. From then on, while
the extraction is not cancelled, every reference to a finished component is answered by what the
reference that finished it was, and nothing changes.

**Proof sketch.** Every call keeps all that (`Call.Performs.passes`), since every stage does
(`OpenRuns.passes`). A reference to a finished component is answered by the memo. -/
theorem calls_of_reached {repository : Repository} {call : Call} {answer : Option Resolution}
    {trail : List OpenState}
    (hreached : Relation.ReflTransGen (OpenState.Leads context) ⟨{ repository }, ∅⟩ begun)
    (hcall : call.Performs context begun answer trail ended) :
    begun.resolver.repository.models <+: ended.resolver.repository.models ∧
    begun.resolver.diagnostics <+: ended.resolver.diagnostics ∧
    ended.inProgress = begun.inProgress ∧
    (∀ id resolution, begun.resolver.memo.find? id = some resolution →
      ended.resolver.memo.find? id = some resolution) ∧
    (∀ moment ∈ begun :: trail, moment.resolver.cancelled = true →
      ended.resolver.memo = moment.resolver.memo) ∧
    ∀ target id found, componentName target = .ok (some id) →
      ended.resolver.memo.find? id = some found →
      (∀ hint resolution, call = .request (.schema (.reference target) hint) →
        answer = some resolution → ended.resolver.cancelled = false → resolution = found) ∧
      ∀ moment, ended.ComesTo context moment → moment.resolver.cancelled = false →
        ∀ other hint nullable active, componentName other = .ok (some id) →
          resolveNode context (followReference context active) (.reference other) hint nullable
            moment.resolver = .ok found moment.resolver := by
  obtain ⟨hidle, -⟩ := OpenState.later_of_calls rfl hreached
  have hpasses := hcall.passes hidle
  have hgrows := hpasses.later.grows
  refine ⟨hgrows.models, hgrows.diagnostics, hpasses.inProgress, hgrows.memo,
    fun moment hmoment hcancelled => ?_, fun target id found hname hmemo => ⟨?_, ?_⟩⟩
  · rcases List.mem_cons.1 hmoment with rfl | hmoment
    · exact hpasses.later.frozen hcancelled
    · exact (hpasses.moments moment hmoment).2.frozen hcancelled
  · rintro hint resolution rfl rfl hlive
    exact hcall.eq_of_memo hidle hlive hname hmemo
  · intro moment hcomes hlive other hint nullable active hother
    have hkept := (hcomes.later (hpasses.inProgress.trans hidle)).grows.memo id found hmemo
    have hrun : Runs context active (.atNode (.reference other) hint nullable) moment.resolver found
        moment.resolver := .finished hlive hother hkept
    exact hrun.step_eq_ok

end Sessions

/-- An object with a property that refers to `B`. -/
def holder : Schema :=
  { types := .ofList [.object], properties := [("b", .reference "#/components/schemas/B")] }

/-- An object `A` with a property that refers to the text `B`. -/
def recordOfText : Document :=
  .ofSchemas [("A", .inline holder), ("B", .inline { types := .ofList [.string] })]

/-- A resolver that has resolved a reference to `B`. -/
def textResolved : OpenState :=
  ⟨(({} : ResolverState).register none (.primitive .string)).memoise "B"
    ⟨["#/primitive/string"], true⟩, ∅⟩

/-- A reference to `B` is resolved, and then one to `A`. The latter is interrupted after its
property is resolved: in the midst of it references to `B` are answered as before, and `A` is not
finished. -/
theorem calls_recordOfText :
    let context : Context := ⟨recordOfText, none⟩
    ∃ (trail trail' : List OpenState) (moment ended : OpenState),
      (Call.request (.schema (.reference "#/components/schemas/B") "h")).Performs context ⟨{}, ∅⟩
        (some ⟨["#/primitive/string"], true⟩) trail textResolved ∧
      (Call.request (.schema (.reference "#/components/schemas/A") "h")).Performs context
        textResolved (some ⟨["A"], false⟩) trail' ended ∧
      moment ∈ trail' ∧ moment.inProgress = {"A"} ∧
      (∀ hint active, resolveNode context (followReference context active)
        (.reference "#/components/schemas/B") hint false moment.resolver =
          .ok ⟨["#/primitive/string"], true⟩ moment.resolver) ∧
      ended.inProgress = ∅ ∧ ended.resolver.memo.find? "A" = none := by
  intro context
  have hstart : Relation.ReflTransGen (OpenState.Leads context) ⟨{}, ∅⟩ ⟨{}, ∅⟩ := .refl
  have hfindA : recordOfText.schemas.find? "A" = some (.inline holder) := rfl
  have hfindB : recordOfText.schemas.find? "B" = some (.inline { types := .ofList [.string] }) :=
    rfl
  have hA : recordOfText.findSchema "#/components/schemas/A" = .ok (.ok _) :=
    Document.findSchema_of_inline ⟨rfl, rfl⟩ hfindA
  have hB : recordOfText.findSchema "#/components/schemas/B" = .ok (.ok _) :=
    Document.findSchema_of_inline ⟨rfl, rfl⟩ hfindB
  have hschemaB : OpenRuns context (.atSchema { types := .ofList [.string] } "B" false)
      (OpenState.enter ⟨{}, ∅⟩ "B")
      ⟨Schema.references { types := .ofList [.string] } "B" false, true && true⟩ _ _ :=
    .typed rfl rfl (.noObject rfl) (.noArray rfl)
  have htext : OpenRuns context (.atNode (.reference "#/components/schemas/B") "h" false) ⟨{}, ∅⟩
      ⟨["#/primitive/string"], true⟩ _ textResolved :=
    .entered rfl rfl rfl (Finset.notMem_empty _) hB hschemaB
  have hobject : OpenRuns context (.atObject holder "A") (textResolved.enter "A") false _
      (textResolved.enter "A").cancel :=
    .lostObject rfl rfl (.nextProperty (.cancelAfter (.finished rfl rfl rfl)) .allProperties) rfl
  have hschemaA : OpenRuns context (.atSchema holder "A" false) (textResolved.enter "A")
      ⟨Schema.references holder "A" false, false && true⟩ _ _ :=
    .typed rfl rfl hobject (.noArray rfl)
  have hnameA : componentName "#/components/schemas/A" = .ok (some "A") := rfl
  have hrecord : OpenRuns context (.atNode (.reference "#/components/schemas/A") "h" false)
      textResolved ⟨["A"], false⟩ _ _ :=
    .entered rfl hnameA rfl (Finset.notMem_empty _) hA hschemaA
  have hcall := Call.Performs.schema htext
  have hcall' := Call.Performs.schema hrecord
  have hfound : textResolved.resolver.memo.find? "B" = some ⟨["#/primitive/string"], true⟩ := rfl
  obtain ⟨-, -, -, -, -, hanswers⟩ := calls_of_reached hstart hcall
  obtain ⟨-, -, hidle, -, hfrozen, -⟩ := calls_of_reached (hstart.tail ⟨_, _, _, hcall⟩) hcall'
  refine ⟨_, _, textResolved.enter "A", _, hcall, hcall', List.mem_cons_self, rfl,
    fun hint active => ?_, hidle, ?_⟩
  · have hnameB : componentName "#/components/schemas/B" = .ok (some "B") := rfl
    exact (hanswers _ "B" _ hnameB hfound).2 (textResolved.enter "A")
      ⟨textResolved, .refl, .inr ⟨_, _, _, _, hcall', List.mem_cons_self⟩⟩ rfl _ hint false active
      hnameB
  · have hsame := hfrozen (textResolved.enter "A").cancel (by simp) rfl
    rw [hsame]
    rfl

end ApiCatalog
