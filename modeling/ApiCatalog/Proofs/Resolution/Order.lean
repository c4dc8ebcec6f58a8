import ApiCatalog.Proofs.Resolution.Parts

set_option autoImplicit false

/-!
# The order of registration

A model is registered after the models that it refers to, except for references back along a
cycle of components: these are answered before it is known what will be registered.

## Main definitions

* `Document.Placed`: a name is registered, or lies on a cycle of references.
* `Document.Ordered`: models refer to names that are placed when they are registered.

## Main results

* `ApiCatalog.Runs.ordered`: a run keeps that order, and what it answers refers to placed names.
-/

namespace ApiCatalog

namespace Document

variable (document : Document)

/-- A name is registered, or it is that of a component on a cycle of references. -/
def Placed (state : ResolverState) (name : ModelName) : Prop :=
  state.repository.contains name = true ∨ document.OnCycle name

/-- Every model refers only to models registered before it and to components on a cycle, and so
does every component that was resolved with success. -/
structure Ordered (state : ResolverState) : Prop where
  models : ∀ before model after, state.repository.models = before ++ model :: after →
    ∀ name ∈ model.references, name ∈ before.map Model.name ∨ document.OnCycle name
  memo : ∀ id resolution, state.memo.find? id = some resolution →
    resolution.Refers (document.Placed state)

/-- The active components lead to whatever a stage may meet. -/
def Leads (active : List ModelName) {kind : StageKind} (stage : Stage kind) : Prop :=
  ∀ id ∈ active, ∀ target ∈ stage.targets, ∀ other, targetName? target = some other →
    Relation.TransGen document.RefersTo id other

variable {document}

/-- A placed name stays placed. -/
theorem Placed.mono {state state' : ResolverState} {name : ModelName}
    (h : document.Placed state name) (hgrows : state.Grows state') :
    document.Placed state' name :=
  h.imp_left hgrows.contains

/-- What active components lead to, they lead to from any part. -/
theorem Leads.mono {active : List ModelName} {kind₁ kind₂ : StageKind}
    {stage : Stage kind₁} {part : Stage kind₂}
    (h : document.Leads active stage) (hsub : part.targets ⊆ stage.targets) :
    document.Leads active part :=
  fun id hid target ht => h id hid target (hsub ht)

/-- A component that is entered leads to whatever its schema mentions, and so do the components
that are active already. -/
theorem Leads.enter {active : List ModelName} {target id : String} {schema : Schema}
    {hint : ModelName} {nullable : Bool}
    (h : document.Leads active (.atNode (.reference target) hint nullable))
    (hid : componentName target = .ok (some id))
    (hfound : document.findSchema target = .ok (.ok schema)) :
    document.Leads (id :: active) (.atSchema schema id false) := by
  intro start hstart inner hinner other hother
  have hstep : Relation.TransGen document.RefersTo id other :=
    transGen_of_findSchema hid hfound hinner hother
  rcases List.mem_cons.1 hstart with rfl | hstart
  · exact hstep
  · exact (h start hstart target (by simp [Stage.targets, Node.targets]) id
      (targetName?_of_componentName hid)).trans hstep

namespace Ordered

variable {state : ResolverState} {cancelAt : Option Nat}

/-- A model that refers to placed names may be registered. -/
theorem register {model : Model} (h : document.Ordered state)
    (hmodel : ∀ name ∈ model.references, document.Placed state name) :
    document.Ordered (state.register cancelAt model) where
  models := by
    intro before other after hsplit name hname
    rw [ResolverState.repository_register, Repository.models_register] at hsplit
    split at hsplit
    · exact h.models before other after hsplit name hname
    · rcases List.eq_nil_or_concat after with rfl | ⟨after, last, rfl⟩
      · obtain ⟨rfl, hlast⟩ := List.append_inj' hsplit rfl
        cases hlast
        exact (hmodel name hname).imp_left Repository.contains_iff.1
      · rw [List.concat_eq_append, ← List.cons_append, ← List.append_assoc] at hsplit
        exact h.models before other after (List.append_inj' hsplit rfl).1 name hname
  memo := fun id resolution hmemo => (h.memo id resolution hmemo).mono
    fun _ hplaced => hplaced.mono (.register _ _ _)

/-- Models that refer to nothing may be registered. -/
theorem registerAll {models : List Model} (h : document.Ordered state)
    (hmodels : ∀ model ∈ models, model.references = []) :
    document.Ordered (state.registerAll cancelAt models) :=
  ResolverState.maintains_registerAll document.Ordered
    (fun model hmodel hordered => hordered.register (by simp [hmodels model hmodel])) h

/-- A diagnostic does not change the order. -/
theorem record (h : document.Ordered state) (diagnostic : Diagnostic) :
    document.Ordered (state.record diagnostic) :=
  ⟨h.models, h.memo⟩

/-- A component that refers to placed names may be finished. -/
theorem memoise {id : ModelName} {resolution : Resolution} (h : document.Ordered state)
    (hr : resolution.Refers (document.Placed state)) :
    document.Ordered (state.memoise id resolution) where
  models := by simpa using h.models
  memo := by
    intro other found hfound
    have hsame : document.Placed (state.memoise id resolution) = document.Placed state := by
      funext name
      simp [Placed]
    rw [hsame]
    rcases ResolverState.find?_memoise_cases hfound with hfound | ⟨-, rfl⟩
    · exact h.memo other found hfound
    · exact hr

end Ordered

end Document

/-- The models that a schema calls for at once are primitive types and the enumeration of its
literals. -/
theorem Schema.flatModels_cases {schema : Schema} {hint : ModelName} {nullable : Bool}
    {model : Model} (h : model ∈ schema.flatModels hint nullable) :
    (∃ kind, model = .primitive kind) ∨ model = enumerationModel hint schema.literals := by
  rcases List.mem_append.1 h with h | h
  · obtain ⟨kind, -, rfl⟩ := List.mem_map.1 h
    exact .inl ⟨kind, rfl⟩
  · unfold enumerations at h
    split at h
    · exact .inr (List.mem_singleton.1 h)
    · cases h

/-- The models that a schema calls for at once refer to nothing. -/
theorem references_of_mem_flatModels {schema : Schema} {hint : ModelName} {nullable : Bool}
    {model : Model} (h : model ∈ schema.flatModels hint nullable) : model.references = [] := by
  rcases Schema.flatModels_cases h with ⟨kind, rfl⟩ | rfl <;> rfl

/-- Registered models are known by their names. -/
theorem contains_registerAll {cancelAt : Option Nat} {state : ResolverState} {models : List Model}
    {model : Model} (h : model ∈ models) :
    (state.registerAll cancelAt models).repository.contains model.name = true := by
  induction models generalizing state with
  | nil => cases h
  | cons first rest ih =>
    rcases List.mem_cons.1 h with rfl | h
    · exact (ResolverState.Grows.registerAll cancelAt _ rest).contains
        Repository.contains_register_self
    · exact ih h

/-- **A run keeps the order of registration**, and what it answers refers to names that are
registered or lie on a cycle.

**Proof sketch.** Induction on the run. A reference is answered with an id that need not be
registered only if its component is active; the active components lead to all that is met, so that
component leads back to itself. A model is registered when its parts have been answered. -/
theorem Runs.ordered {context : Context} {kind : StageKind} {active : List ModelName}
    {stage : Stage kind}
    {state state' : ResolverState} {answer : kind.Answer}
    (h : Runs context active stage state answer state')
    (hleads : context.document.Leads active stage)
    (hgathered : stage.Gathered (context.document.Placed state))
    (hordered : context.document.Ordered state) :
    context.document.Ordered state' ∧ stage.Answers (context.document.Placed state') answer := by
  induction h with
  | cancelled => exact ⟨hordered, Resolution.refers_failed⟩
  | inline _ _ ih => exact ih (hleads.mono (by simp [Stage.targets, Node.targets])) trivial hordered
  | refused | missing | untyped => exact ⟨hordered.record _, Resolution.refers_failed⟩
  | finished _ _ hmemo => exact ⟨hordered, hordered.memo _ _ hmemo⟩
  | @busy active target hint nullable id state _ hname _ hactive =>
    refine ⟨hordered, fun _ name hname' => ?_⟩
    obtain rfl := List.mem_singleton.1 hname'
    exact .inr (hleads _ hactive target (by simp [Stage.targets, Node.targets]) _
      (targetName?_of_componentName hname))
  | entered _ hname _ _ hfound _ ih =>
    obtain ⟨hordered', hanswers⟩ := ih (hleads.enter hname hfound) trivial hordered
    refine ⟨hordered'.memoise hanswers, hanswers.mono fun name hplaced => ?_⟩
    simpa [Document.Placed] using hplaced
  | composed hshape _ _ ih =>
    obtain ⟨hordered', hanswers⟩ := ih (hleads.mono (Schema.memberTargets_subset hshape))
      MemberResult.refers_empty hordered
    refine ⟨hordered'.register (hanswers _ rfl), fun _ name hname => ?_⟩
    obtain rfl := List.mem_singleton.1 hname
    exact .inl Repository.contains_register_self
  | abandoned hshape _ _ ih =>
    obtain ⟨hordered', -⟩ := ih (hleads.mono (Schema.memberTargets_subset hshape))
      MemberResult.refers_empty hordered
    exact ⟨hordered', fun h => absurd h Bool.false_ne_true⟩
  | typed _ _ hobject harray ihObject ihArray =>
    obtain ⟨hordered₁, hanswers₁⟩ := ihObject (hleads.mono Schema.propertyTargets_subset) trivial
      (hordered.registerAll fun _ => references_of_mem_flatModels)
    obtain ⟨hordered₂, hanswers₂⟩ := ihArray (hleads.mono Schema.itemTargets_subset) trivial
      hordered₁
    refine ⟨hordered₂, answers_typed (fun model hmodel => .inl ?_) ?_ hanswers₂⟩
    · exact (hobject.grows.trans harray.grows).contains (contains_registerAll hmodel)
    · exact fun hdone hcalled => (hanswers₁ hdone hcalled).mono harray.grows
  | allMembers =>
    refine ⟨hordered, fun members hmembers => ?_⟩
    cases hmembers
    exact hgathered
  | membersLeft =>
    refine ⟨hordered, fun members hmembers => ?_⟩
    cases hmembers
  | nextMember _ hfirst _ ihFirst ihRest =>
    obtain ⟨hordered₁, hanswers₁⟩ := ihFirst
      (hleads.mono fun _ h => List.mem_append.2 (.inl h)) trivial hordered
    exact ihRest (hleads.mono fun _ h => List.mem_append.2 (.inr h))
      ((hgathered.mono fun _ h => h.mono hfirst.grows).add hanswers₁) hordered₁
  | allProperties => exact ⟨hordered, hgathered⟩
  | nextProperty hfirst _ ihFirst ihRest =>
    obtain ⟨hordered₁, hanswers₁⟩ := ihFirst
      (hleads.mono fun _ h => List.mem_append.2 (.inl h)) trivial hordered
    exact ihRest (hleads.mono fun _ h => List.mem_append.2 (.inr h))
      ((hgathered.mono fun _ h => h.mono hfirst.grows).add hanswers₁ _ _) hordered₁
  | noObject hcalled => exact ⟨hordered, fun _ h => by simp [hcalled] at h⟩
  | knownObject _ hknown => exact ⟨hordered, fun _ _ => .inl hknown⟩
  | lostObject _ _ _ _ ih =>
    exact ⟨(ih hleads PropertyResult.refers_empty hordered).1, fun h => absurd h Bool.false_ne_true⟩
  | object _ _ _ _ ih =>
    obtain ⟨hordered', hanswers⟩ := ih hleads PropertyResult.refers_empty hordered
    refine ⟨hordered'.register fun name hname => ?_, fun _ _ =>
      .inl Repository.contains_register_self⟩
    obtain ⟨property, hproperty, hname⟩ := List.mem_flatMap.1 hname
    exact hanswers property hproperty name hname
  | noArray hcalled => exact ⟨hordered, fun _ h => by simp [hcalled] at h⟩
  | knownArray _ hknown => exact ⟨hordered, fun _ _ => .inl hknown⟩
  | noItems | anyItems => exact ⟨hordered.record _, fun h => absurd h Bool.false_ne_true⟩
  | lostArray _ _ hitems _ _ ih =>
    refine ⟨(ih (hleads.mono ?_) trivial hordered).1, fun h => absurd h Bool.false_ne_true⟩
    simp [Stage.targets, hitems, itemTargets]
  | array _ _ hitems _ hsucceeded ih =>
    obtain ⟨hordered', hanswers⟩ := ih
      (hleads.mono (by simp [Stage.targets, hitems, itemTargets])) trivial hordered
    exact ⟨hordered'.register (hanswers hsucceeded), fun _ _ =>
      .inl Repository.contains_register_self⟩

end ApiCatalog
