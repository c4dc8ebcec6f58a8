import ApiCatalog.Proofs.Resolution.Runs

set_option autoImplicit false

/-!
# Resolution only adds

Whatever a run does, models and diagnostics come after those that are there, finished components
keep their resolutions, and a cancellation is never taken back.

## Main definitions

* `ResolverState.Grows`: one state comes before another.

## Main results

* `Runs.grows`: a run leads to a later state.
* `Runs.maintains`: it maintains what the basic changes of the state keep.
* `Runs.memo_active`: a component is not finished while it is active.
* `Runs.cancelled_of_none`: members are given up only if the extraction was cancelled.
-/

namespace ApiCatalog

/-! ## Registering -/

namespace Repository

variable {repository : Repository} {model : Model} {name : ModelName}

/-- The names after a registration. -/
theorem contains_register :
    (repository.register model).2.contains name = true ↔
      repository.contains name = true ∨ name = model.name := by
  rw [contains_iff, contains_iff, names, names, models_register]
  split
  · next h =>
    refine ⟨.inl, ?_⟩
    rintro (h' | rfl)
    · exact h'
    · exact contains_iff.1 h
  · simp

/-- The name of a model is known once it has been registered. -/
theorem contains_register_self : (repository.register model).2.contains model.name = true :=
  contains_register.2 (.inr rfl)

/-- The models after a registration. -/
theorem mem_models_register {other : Model} :
    other ∈ (repository.register model).2.models ↔
      other ∈ repository.models ∨ (other = model ∧ repository.contains model.name = false) := by
  rw [models_register]
  split
  · next h => simp [h]
  · next h => simp [h]

/-- A registration puts nothing before the models that are there. -/
theorem prefix_register : repository.models <+: (repository.register model).2.models := by
  rw [models_register]
  split
  · exact List.prefix_rfl
  · exact List.prefix_append _ _

/-- A name without a model is not registered. -/
theorem find?_eq_none_iff : repository.find? name = none ↔ repository.contains name = false := by
  rw [find?, List.find?_eq_none, ← Bool.not_eq_true, contains_iff, names, List.mem_map]
  simp

/-- The model of a name after a registration. -/
theorem find?_register : (repository.register model).2.find? name =
    (repository.find? name).or (if model.name = name then some model else none) := by
  rw [find?, models_register]
  split
  · next hknown =>
    split
    · next heq =>
      cases hfind : repository.find? name with
      | none =>
        rw [find?_eq_none_iff, ← heq, hknown] at hfind
        cases hfind
      | some found => exact hfind
    · rw [Option.or_none]
      rfl
  · rw [List.find?_append, List.find?_singleton]
    simp [find?]

end Repository

namespace ResolverState

variable (cancelAt : Option Nat) (state : ResolverState) (model : Model) (diagnostic : Diagnostic)
  (id : ModelName) (resolution : Resolution)

/-- The models after a registration. -/
@[simp]
theorem repository_register :
    (state.register cancelAt model).repository = (state.repository.register model).2 := rfl

/-- Registrations report nothing. -/
@[simp]
theorem diagnostics_registerAll (models : List Model) :
    (state.registerAll cancelAt models).diagnostics = state.diagnostics := by
  induction models generalizing state with
  | nil => rfl
  | cons model rest ih => exact ih _

/-- Registrations finish no component. -/
@[simp]
theorem memo_registerAll (models : List Model) :
    (state.registerAll cancelAt models).memo = state.memo := by
  induction models generalizing state with
  | nil => rfl
  | cons model rest ih => exact ih _

/-- A diagnostic comes last. -/
@[simp]
theorem diagnostics_record :
    (state.record diagnostic).diagnostics = state.diagnostics ++ [diagnostic] := rfl

/-- Memoisation registers nothing. -/
@[simp]
theorem repository_memoise : (state.memoise id resolution).repository = state.repository := by
  unfold memoise
  split <;> rfl

/-- Memoisation reports nothing. -/
@[simp]
theorem diagnostics_memoise : (state.memoise id resolution).diagnostics = state.diagnostics := by
  unfold memoise
  split <;> rfl

/-- Memoisation does not cancel. -/
@[simp]
theorem cancelled_memoise : (state.memoise id resolution).cancelled = state.cancelled := by
  unfold memoise
  split <;> rfl

variable {state id resolution}

/-- Unless the extraction is cancelled, memoisation finishes its component and no other. -/
theorem find?_memoise (h : state.cancelled = false) (other : ModelName) :
    (state.memoise id resolution).memo.find? other =
      if id = other then some resolution else state.memo.find? other := by
  unfold memoise
  rw [if_neg (by simp [h])]
  exact OrderedMap.find?_insert _ _ _ _

/-- What is found in the memo after a memoisation was there or is new. -/
theorem find?_memoise_cases {other : ModelName} {found : Resolution}
    (h : (state.memoise id resolution).memo.find? other = some found) :
    state.memo.find? other = some found ∨ (other = id ∧ found = resolution) := by
  cases hc : state.cancelled with
  | true =>
    rw [memoise, if_pos hc] at h
    exact .inl h
  | false =>
    rw [find?_memoise hc] at h
    split at h
    · next he =>
      cases h
      exact .inr ⟨he.symm, rfl⟩
    · exact .inl h

end ResolverState

/-! ## Later states -/

/-- One state comes before another. -/
structure ResolverState.Grows (state state' : ResolverState) : Prop where
  models : state.repository.models <+: state'.repository.models
  diagnostics : state.diagnostics <+: state'.diagnostics
  memo : ∀ id resolution, state.memo.find? id = some resolution →
    state'.memo.find? id = some resolution
  cancelled : state.cancelled = true → state'.cancelled = true

namespace ResolverState.Grows

variable {state state₁ state₂ : ResolverState}

/-- A state comes before itself. -/
theorem refl (state : ResolverState) : state.Grows state :=
  ⟨List.prefix_rfl, List.prefix_rfl, fun _ _ => id, id⟩

/-- Later than later is later. -/
theorem trans (h₁ : state.Grows state₁) (h₂ : state₁.Grows state₂) : state.Grows state₂ :=
  ⟨h₁.models.trans h₂.models, h₁.diagnostics.trans h₂.diagnostics,
    fun id resolution h => h₂.memo id resolution (h₁.memo id resolution h),
    fun h => h₂.cancelled (h₁.cancelled h)⟩

/-- A state is later after a registration. -/
theorem register (cancelAt : Option Nat) (state : ResolverState) (model : Model) :
    state.Grows (state.register cancelAt model) where
  models := Repository.prefix_register
  diagnostics := List.prefix_rfl
  memo := fun _ _ => id
  cancelled := fun h => by simp [ResolverState.register, h]

/-- A state is later after registrations. -/
theorem registerAll (cancelAt : Option Nat) (state : ResolverState) (models : List Model) :
    state.Grows (state.registerAll cancelAt models) := by
  induction models generalizing state with
  | nil => exact refl state
  | cons model rest ih => exact (register cancelAt state model).trans (ih _)

/-- A state is later after a diagnostic. -/
theorem record (state : ResolverState) (diagnostic : Diagnostic) :
    state.Grows (state.record diagnostic) where
  models := List.prefix_rfl
  diagnostics := List.prefix_append _ _
  memo := fun _ _ => id
  cancelled := id

/-- A state is later after a component is finished that was not finished when it was begun. -/
theorem memoise {id : ModelName} {resolution : Resolution} (h : state.Grows state₁)
    (hnew : state.memo.find? id = none) : state.Grows (state₁.memoise id resolution) where
  models := by simpa using h.models
  diagnostics := by simpa using h.diagnostics
  memo := by
    intro other found hfound
    have hne : id ≠ other := by
      rintro rfl
      rw [hnew] at hfound
      cases hfound
    have hfound' := h.memo other found hfound
    unfold ResolverState.memoise
    split
    · exact hfound'
    · rw [OrderedMap.find?_insert, if_neg hne]
      exact hfound'
  cancelled := by simpa using h.cancelled

/-- A registered name stays registered. -/
theorem contains (h : state.Grows state₁) {name : ModelName}
    (hname : state.repository.contains name = true) :
    state₁.repository.contains name = true := by
  rw [Repository.contains_iff] at hname ⊢
  exact (h.models.map Model.name).subset hname

/-- The model of a name stays. -/
theorem find? (h : state.Grows state₁) {name : ModelName} {model : Model}
    (hfind : state.repository.find? name = some model) :
    state₁.repository.find? name = some model := by
  obtain ⟨later, hlater⟩ := h.models
  rw [Repository.find?, ← hlater, List.find?_append]
  rw [Repository.find?] at hfind
  rw [hfind, Option.some_or]

/-- What is not cancelled later was not cancelled before. -/
theorem not_cancelled (h : state.Grows state₁) (hc : state₁.cancelled = false) :
    state.cancelled = false := by
  cases hs : state.cancelled with
  | false => rfl
  | true => rw [h.cancelled hs] at hc; cases hc

end ResolverState.Grows

/-- **A run leads to a later state.**

**Proof sketch.** Induction on the run. A component that is memoised at the end was not finished
when it was entered, so no resolution is replaced. -/
theorem Runs.grows {context : Context} {kind : StageKind} {active : List ModelName}
    {stage : Stage kind}
    {state state' : ResolverState} {answer : kind.Answer}
    (h : Runs context active stage state answer state') : state.Grows state' := by
  induction h with
  | cancelled | finished | busy | allMembers | membersLeft | allProperties | noObject | knownObject
  | noArray | knownArray => exact .refl _
  | refused | missing | untyped | noItems | anyItems => exact .record _ _
  | inline _ _ ih | abandoned _ _ _ ih | lostObject _ _ _ _ ih | lostArray _ _ _ _ _ ih => exact ih
  | entered _ _ hmemo _ _ _ ih => exact ih.memoise hmemo
  | composed _ _ _ ih | object _ _ _ _ ih | array _ _ _ _ _ ih => exact ih.trans (.register _ _ _)
  | typed _ _ _ _ ihObject ihArray =>
    exact (ResolverState.Grows.registerAll _ _ _).trans (ihObject.trans ihArray)
  | nextMember _ _ _ ihFirst ihRest | nextProperty _ _ ihFirst ihRest => exact ihFirst.trans ihRest

/-- Registrations maintain what each of them keeps. -/
theorem ResolverState.maintains_registerAll {cancelAt : Option Nat} {models : List Model}
    (inv : ResolverState → Prop)
    (hregister : ∀ {state}, ∀ model ∈ models, inv state → inv (state.register cancelAt model))
    {state : ResolverState} (hinv : inv state) : inv (state.registerAll cancelAt models) := by
  induction models generalizing state with
  | nil => exact hinv
  | cons model rest ih =>
    exact ih (fun other hother => hregister other (List.mem_cons_of_mem _ hother))
      (hregister model List.mem_cons_self hinv)

/-- **A run maintains what the basic changes of the state keep**: registrations, diagnostics and
memoisations. -/
theorem Runs.maintains {context : Context} {kind : StageKind} {active : List ModelName}
    {stage : Stage kind} {state state' : ResolverState} {answer : kind.Answer}
    (h : Runs context active stage state answer state') (inv : ResolverState → Prop)
    (hregister : ∀ {state} model, inv state → inv (state.register context.cancelAt model))
    (hrecord : ∀ {state} diagnostic, inv state → inv (state.record diagnostic))
    (hmemoise : ∀ {state} id resolution, inv state → inv (state.memoise id resolution))
    (hinv : inv state) : inv state' := by
  induction h with
  | cancelled | finished | busy | allMembers | membersLeft | allProperties | noObject | knownObject
  | noArray | knownArray => exact hinv
  | refused | missing | untyped | noItems | anyItems => exact hrecord _ hinv
  | inline _ _ ih | abandoned _ _ _ ih | lostObject _ _ _ _ ih | lostArray _ _ _ _ _ ih =>
    exact ih hinv
  | entered _ _ _ _ _ _ ih => exact hmemoise _ _ (ih hinv)
  | composed _ _ _ ih | object _ _ _ _ ih | array _ _ _ _ _ ih => exact hregister _ (ih hinv)
  | typed _ _ _ _ ihObject ihArray =>
    refine ihArray (ihObject ?_)
    exact ResolverState.maintains_registerAll inv (fun model _ => hregister model) hinv
  | nextMember _ _ _ ihFirst ihRest | nextProperty _ _ ihFirst ihRest =>
    exact ihRest (ihFirst hinv)

/-- **No run finishes a component that is active.**

**Proof sketch.** Induction on the run. Only a component that is entered is finished, and it was
not active before that; the others that are active stay so inside. -/
theorem Runs.memo_active {context : Context} {kind : StageKind} {active : List ModelName}
    {stage : Stage kind} {state state' : ResolverState} {answer : kind.Answer}
    (h : Runs context active stage state answer state') {id : ModelName} (hid : id ∈ active)
    (hnew : state.memo.find? id = none) : state'.memo.find? id = none := by
  induction h with
  | cancelled | finished | busy | allMembers | membersLeft | allProperties | noObject | knownObject
  | noArray | knownArray | refused | missing | untyped | noItems | anyItems => exact hnew
  | inline _ _ ih | abandoned _ _ _ ih | lostObject _ _ _ _ ih | lostArray _ _ _ _ _ ih
  | composed _ _ _ ih | object _ _ _ _ ih | array _ _ _ _ _ ih => exact ih hid hnew
  | @entered active target hint nullable entered schema state resolution state'
      _ _ _ hfresh _ _ ih =>
    have hne : entered ≠ id := by
      rintro rfl
      exact hfresh hid
    have hnew' := ih (List.mem_cons_of_mem _ hid) hnew
    unfold ResolverState.memoise
    split
    · exact hnew'
    · rw [OrderedMap.find?_insert, if_neg hne]
      exact hnew'
  | typed _ _ _ _ ihObject ihArray =>
    refine ihArray hid (ihObject hid ?_)
    rw [ResolverState.memo_registerAll]
    exact hnew
  | nextMember _ _ _ ihFirst ihRest | nextProperty _ _ ihFirst ihRest =>
    exact ihRest hid (ihFirst hid hnew)

/-- Members are left only if the extraction is cancelled. -/
theorem Runs.cancelled_of_none {context : Context} {active : List ModelName} {offered : Bool}
    {members : List Node} {hint : ModelName} {index : Nat} {result : MemberResult}
    {state state' : ResolverState}
    (h : Runs context active (.atMembers offered members hint index result) state none state') :
    state'.cancelled = true := by
  induction members generalizing index result state with
  | nil => cases h
  | cons member rest ih =>
    cases h with
    | membersLeft hcancelled => exact hcancelled
    | nextMember _ _ hrest => exact ih hrest

end ApiCatalog
