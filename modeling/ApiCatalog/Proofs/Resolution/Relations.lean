import ApiCatalog.Proofs.Resolution.Runs

set_option autoImplicit false

/-!
# Related steps

Two steps are compared by what they do from related states: both answer alike or both end the
extraction alike, and the states that they leave are related again. What the basic steps of
resolution respect is respected by every resolution, over documents with the same components. If the
two steps and the two states are the same, such a relation is a property of states that is kept,
whether a step answers or not.

## Main definitions

* `ApiCatalog.Relates`, `ApiCatalog.Related`: steps that do alike from related states.
* `Resolver.Respects`: a relation of states that the basic steps of resolution respect.

## Main results

* `Relates.bind`: one step after another.
* `Resolver.Respects.resolve`, `Resolver.Respects.resolveComponent`: resolutions respect what their
  basic steps respect.
* `ApiCatalog.resolve_congr`, `ApiCatalog.resolveComponent_congr`: resolutions depend on the
  components only.
-/

namespace ApiCatalog

/-! ## Steps -/

section Steps

variable {σ α β : Type}

/-- Two steps that begin in related states answer alike, in states that are related after that
answer, or they end the extraction alike. -/
def Relates (before : σ → σ → Prop) (step step' : EStateM Abort σ α) (after : α → σ → σ → Prop)
    (left : σ → σ → Prop) : Prop :=
  ∀ state state', before state state' →
    match step state, step' state' with
    | .ok answer s, .ok answer' s' => answer' = answer ∧ after answer s s'
    | .error abort s, .error abort' s' => abort' = abort ∧ left s s'
    | .ok _ _, .error _ _ => False
    | .error _ _, .ok _ _ => False

/-- Two steps lead from related states to related states. -/
abbrev Related (R : σ → σ → Prop) (step step' : EStateM Abort σ α) : Prop :=
  Relates R step step' (fun _ => R) R

namespace Relates

variable {before : σ → σ → Prop} {after middle : α → σ → σ → Prop} {last : β → σ → σ → Prop}
  {left : σ → σ → Prop} {step step' : EStateM Abort σ α} {f f' : α → EStateM Abort σ β}

/-- Less may be asked of the first states, and less be said of the last ones. -/
theorem mono {before' : σ → σ → Prop} {after' : α → σ → σ → Prop} {left' : σ → σ → Prop}
    (h : Relates before step step' after left) (hbefore : ∀ s s', before' s s' → before s s')
    (hafter : ∀ a s s', after a s s' → after' a s s') (hleft : ∀ s s', left s s' → left' s s') :
    Relates before' step step' after' left' := by
  intro s s' hs
  have hsteps := h s s' (hbefore s s' hs)
  split <;> simp_all

/-- Nothing need be said of steps that end the extraction. -/
theorem anyhow (h : Relates before step step' after left) :
    Relates before step step' after fun _ _ => True :=
  h.mono (fun _ _ hs => hs) (fun _ _ _ hs => hs) fun _ _ _ => trivial

/-- A step does what it does. -/
theorem refl (step : EStateM Abort σ α) : Relates Eq step step (fun _ => Eq) Eq := by
  rintro s _ rfl
  cases step s <;> exact ⟨rfl, rfl⟩

/-- Two answers. -/
theorem pure {a : α} (h : ∀ s s', before s s' → after a s s') :
    Relates before (Pure.pure a) (Pure.pure a) after left :=
  fun s s' hs => ⟨rfl, h s s' hs⟩

/-- Two steps after two others. -/
theorem bind (hstep : Relates before step step' middle left)
    (hrest : ∀ a, Relates (middle a) (f a) (f' a) last left) :
    Relates before (step >>= f) (step' >>= f') last left := by
  intro s s' hs
  have hfirst := hstep s s' hs
  show match EStateM.bind step f s, EStateM.bind step' f' s' with
    | .ok answer t, .ok answer' t' => answer' = answer ∧ last answer t t'
    | .error abort t, .error abort' t' => abort' = abort ∧ left t t'
    | .ok _ _, .error _ _ => False
    | .error _ _, .ok _ _ => False
  unfold EStateM.bind
  cases hrun : step s with
  | ok a t =>
    cases hrun' : step' s' with
    | ok a' t' =>
      rw [hrun, hrun'] at hfirst
      obtain ⟨rfl, hmiddle⟩ := hfirst
      exact hrest _ t t' hmiddle
    | error abort' t' =>
      rw [hrun, hrun'] at hfirst
      exact hfirst.elim
  | error abort t =>
    cases hrun' : step' s' with
    | ok a' t' =>
      rw [hrun, hrun'] at hfirst
      exact hfirst.elim
    | error abort' t' =>
      rw [hrun, hrun'] at hfirst
      exact hfirst

/-- Steps that depend on a condition. -/
theorem ite {other other' : EStateM Abort σ α} {condition : Prop} [Decidable condition]
    (hstep : condition → Relates before step step' after left)
    (hother : ¬ condition → Relates before other other' after left) :
    Relates before (if condition then step else other) (if condition then step' else other')
      after left := by
  by_cases hcondition : condition
  · rw [if_pos hcondition, if_pos hcondition]
    exact hstep hcondition
  · rw [if_neg hcondition, if_neg hcondition]
    exact hother hcondition

/-- Two steps that depend on the states in which they begin. -/
theorem get {f f' : σ → EStateM Abort σ β}
    (h : ∀ s s', before s s' →
      Relates (fun t t' => t = s ∧ t' = s') (f s) (f' s') last left) :
    Relates before (MonadState.get >>= f) (MonadState.get >>= f') last left :=
  fun s s' hs => h s s' hs s s' ⟨rfl, rfl⟩

/-- What one step answers, the other one answers as well. -/
theorem ok_of_ok (h : Relates before step step' after left) {s s' t : σ} {a : α}
    (hs : before s s') (hrun : step s = .ok a t) : ∃ t', step' s' = .ok a t' ∧ after a t t' := by
  have hsteps := h s s' hs
  rw [hrun] at hsteps
  cases hrun' : step' s' with
  | ok a' t' =>
    rw [hrun'] at hsteps
    obtain ⟨rfl, hafter⟩ := hsteps
    exact ⟨t', rfl, hafter⟩
  | error abort' t' =>
    rw [hrun'] at hsteps
    exact hsteps.elim

end Relates

/-- Steps that are related by equality are the same. -/
theorem related_eq_iff {step step' : EStateM Abort σ α} : Related Eq step step' ↔ step = step' := by
  constructor
  · intro h
    funext s
    have hsteps := h s s rfl
    cases hrun : step s <;> cases hrun' : step' s <;> rw [hrun, hrun'] at hsteps <;> simp_all
  · rintro rfl
    exact .refl step

end Steps

/-! ## Resolutions -/

namespace Resolver

/-- A relation of states that the basic steps of resolution respect: it lets the states be told
apart by nothing that a resolution asks for, and goes on holding after whatever it does. -/
structure Respects (cut cut' : Option Nat) (R : ResolverState → ResolverState → Prop) : Prop where
  cancelled : ∀ {s s'}, R s s' → s'.cancelled = s.cancelled
  contains : ∀ {s s'}, R s s' → ∀ name, s'.repository.contains name = s.repository.contains name
  find? : ∀ {s s'}, R s s' → ∀ name, s'.memo.find? name = s.memo.find? name
  register : ∀ {s s'}, R s s' → ∀ model, R (s.register cut model) (s'.register cut' model)
  record : ∀ {s s'}, R s s' → ∀ diagnostic : Diagnostic, diagnostic.kind = .schemaResolution →
    R (s.record diagnostic) (s'.record diagnostic)
  memoise : ∀ {s s'}, R s s' → ∀ name resolution,
    R (s.memoise name resolution) (s'.memoise name resolution)

namespace Respects

variable {cut cut' : Option Nat} {R : ResolverState → ResolverState → Prop} {α : Type}

variable (h : Respects cut cut' R)

include h

/-- The wish to stop. -/
theorem isCancelled : Related R isCancelled isCancelled :=
  fun _ _ hs => ⟨h.cancelled hs, hs⟩

/-- Whether a name is known. -/
theorem isKnown (name : ModelName) : Related R (isKnown name) (isKnown name) :=
  fun _ _ hs => ⟨h.contains hs name, hs⟩

/-- The resolution of a finished component. -/
theorem finished? (name : ModelName) : Related R (finished? name) (finished? name) :=
  fun _ _ hs => ⟨h.find? hs name, hs⟩

/-- A registration. -/
theorem registered (model : Model) :
    Related R (Resolver.register cut model) (Resolver.register cut' model) :=
  fun _ _ hs => ⟨rfl, h.register hs model⟩

/-- A report, about a schema. -/
theorem recorded {diagnostic : Diagnostic} (hkind : diagnostic.kind = .schemaResolution) :
    Related R (Resolver.record diagnostic) (Resolver.record diagnostic) :=
  fun _ _ hs => ⟨rfl, h.record hs diagnostic hkind⟩

/-- A finished component. -/
theorem memoised (name : ModelName) (resolution : Resolution) :
    Related R (Resolver.memoise name resolution) (Resolver.memoise name resolution) :=
  fun _ _ hs => ⟨rfl, h.memoise hs name resolution⟩

omit h in
/-- A value that may end the extraction. -/
theorem ofExcept (result : Except Abort α) :
    Related R (Resolver.ofExcept result) (Resolver.ofExcept result) := by
  cases result <;> exact fun _ _ hs => ⟨rfl, hs⟩

/-- A step that is not taken after the cancellation. -/
theorem unlessCancelled {step step' : Resolver Resolution} (hstep : Related R step step') :
    Related R (unlessCancelled step) (unlessCancelled step') :=
  h.isCancelled.bind fun _ => .ite (fun _ => .pure fun _ _ hs => hs) fun _ => hstep

/-! ## Models -/

variable {context context' : Context} (hcut : context.cancelAt = cut)
  (hcut' : context'.cancelAt = cut')

include hcut hcut'

/-- The registration of primitive types. -/
theorem registerPrimitives (kinds : List PrimitiveKind) :
    Related R (registerPrimitives context kinds) (registerPrimitives context' kinds) := by
  subst hcut hcut'
  induction kinds with
  | nil => exact .pure fun _ _ hs => hs
  | cons kind rest ih => exact (h.registered _).bind fun _ => ih

/-- The registration of an enumeration. -/
theorem registerEnumeration (types : TypeSet) (literals : List EnumLiteral) (hint : ModelName) :
    Related R (registerEnumeration context types literals hint)
      (registerEnumeration context' types literals hint) := by
  subst hcut hcut'
  exact .ite (fun _ => (h.registered _).bind fun _ => .pure fun _ _ hs => hs)
    fun _ => .pure fun _ _ hs => hs

/-- The registration of a composition. -/
theorem registerComposition (kind : CompositionKind) (hint : ModelName)
    (result : Option MemberResult) :
    Related R (registerComposition context kind hint result)
      (registerComposition context' kind hint result) := by
  subst hcut hcut'
  cases result with
  | none => exact .pure fun _ _ hs => hs
  | some result => exact (h.registered _).bind fun _ => .pure fun _ _ hs => hs

/-- The registration of an object. -/
theorem registerObject (hint : ModelName) (result : PropertyResult) :
    Related R (registerObject context hint result) (registerObject context' hint result) := by
  subst hcut hcut'
  exact h.isCancelled.bind fun _ => .ite (fun _ => .pure fun _ _ hs => hs)
    fun _ => (h.registered _).bind fun _ => .pure fun _ _ hs => hs

/-- The registration of an array. -/
theorem registerArray (hint : ModelName) (items : Resolution) :
    Related R (registerArray context hint items) (registerArray context' hint items) := by
  subst hcut hcut'
  exact .ite (fun _ => (h.registered _).bind fun _ => .pure fun _ _ hs => hs)
    fun _ => .pure fun _ _ hs => hs

omit hcut hcut'

/-- A registration that is made once. -/
theorem registerOnce {called : Bool} {name : ModelName} {step step' : Resolver Bool}
    (hstep : Related R step step') :
    Related R (registerOnce called name step) (registerOnce called name step') := by
  refine .ite (fun _ => ?_) fun _ => .pure fun _ _ hs => hs
  exact (h.isKnown name).bind fun _ => .ite (fun _ => .pure fun _ _ hs => hs) fun _ => hstep

end Respects

end Resolver

/-! ## Documents with the same components -/

section Components

variable {document document' : Document} (hsame : document'.components = document.components)

include hsame

/-- The schemas of nodes are the same. -/
theorem Document.schema_congr : document'.schema = document.schema := by
  funext node
  simp only [Document.schema, Document.schemas, Document.allComponents, hsame]

/-- References lead to the same schemas. -/
theorem Document.findSchema_congr : document'.findSchema = document.findSchema := by
  funext path
  simp only [Document.findSchema, Document.schemas, Document.allComponents, hsame]

/-- The same members are offered null. -/
theorem offersNull_congr (kind : CompositionKind) (members : List Node) :
    offersNull document' kind members = offersNull document kind members := by
  have hany : anyAdmitsNull document' members = anyAdmitsNull document members := by
    induction members with
    | nil => rfl
    | cons member rest ih =>
      simp only [anyAdmitsNull, admitsNull, Document.schema_congr hsame, ih]
  cases kind with
  | anyOf => exact hany
  | oneOf => rfl
  | allOf => rfl

end Components

/-! ## The walk -/

namespace Resolver.Respects

variable {document document' : Document} {cut cut' : Option Nat}
  {R : ResolverState → ResolverState → Prop} {follow follow' : FollowReference}

variable (h : Respects cut cut' R) (hsame : document'.components = document.components)

include h hsame

/-- **Every schema is resolved alike** if references are.

**Proof sketch.** Induction on the parts of the schema, whatever has been gathered before. -/
theorem resolveSchema_of_follow
    (hfollow : ∀ target hint, Related R (follow target hint) (follow' target hint)) :
    (∀ node hint nullable, Related R (resolveNode ⟨document, cut⟩ follow node hint nullable)
      (resolveNode ⟨document', cut'⟩ follow' node hint nullable)) ∧
    ∀ schema hint nullable, Related R (resolveSchema ⟨document, cut⟩ follow schema hint nullable)
      (resolveSchema ⟨document', cut'⟩ follow' schema hint nullable) := by
  have hwalk := Schema.induction
    (fun node => ∀ hint nullable,
      Related R (resolveNode ⟨document, cut⟩ follow node hint nullable)
        (resolveNode ⟨document', cut'⟩ follow' node hint nullable))
    (fun schema => ∀ hint nullable,
      Related R (resolveSchema ⟨document, cut⟩ follow schema hint nullable)
        (resolveSchema ⟨document', cut'⟩ follow' schema hint nullable))
    (fun members => ∀ offered hint index result,
      Related R (resolveMembers ⟨document, cut⟩ follow offered members hint index result)
        (resolveMembers ⟨document', cut'⟩ follow' offered members hint index result))
    (fun properties => ∀ required hint result,
      Related R (resolveProperties ⟨document, cut⟩ follow required properties hint result)
        (resolveProperties ⟨document', cut'⟩ follow' required properties hint result))
    (fun items => ∀ hint, Related R (resolveItems ⟨document, cut⟩ follow items hint)
      (resolveItems ⟨document', cut'⟩ follow' items hint))
    ?reference ?inline ?composed ?untyped ?typed ?noMembers ?nextMember ?noProperties
    ?nextProperty ?noItems ?anyItems ?items
  exact ⟨hwalk.1, hwalk.2.1⟩
  case reference =>
    intro target hint nullable
    rw [resolveNode, resolveNode]
    exact h.unlessCancelled (hfollow target hint)
  case inline =>
    intro schema ih hint nullable
    rw [resolveNode, resolveNode]
    exact h.unlessCancelled (ih hint nullable)
  case composed =>
    intro schema kind members hshape ih hint nullable
    rw [resolveSchema_of_composition _ _ hshape, resolveSchema_of_composition _ _ hshape]
    dsimp only
    rw [offersNull_congr hsame]
    refine (ofExcept _).bind fun offered => (ih offered hint 0 {}).bind fun result => ?_
    exact h.registerComposition rfl rfl kind hint result
  case untyped =>
    intro schema hshape htypes hint nullable
    rw [resolveSchema_of_untyped _ _ hshape htypes, resolveSchema_of_untyped _ _ hshape htypes]
    exact (h.recorded rfl).bind fun _ => .pure fun _ _ hs => hs
  case typed =>
    intro schema hshape htypes ihProperties ihItems hint nullable
    rw [resolveSchema_of_types _ _ hshape htypes, resolveSchema_of_types _ _ hshape htypes]
    refine (h.registerPrimitives rfl rfl _).bind fun _ => ?_
    refine (h.registerEnumeration rfl rfl _ _ hint).bind fun enumeration => ?_
    refine Relates.bind (h.registerOnce ?_) fun objectDone => ?_
    · exact (ihProperties _ hint {}).bind fun result => h.registerObject rfl rfl hint result
    · exact (h.registerOnce (ihItems hint)).bind fun _ => .pure fun _ _ hs => hs
  case noMembers => exact fun offered hint index result => .pure fun _ _ hs => hs
  case nextMember =>
    intro member rest ihFirst ihRest offered hint index result
    rw [resolveMembers, resolveMembers]
    refine h.isCancelled.bind fun _ => .ite (fun _ => .pure fun _ _ hs => hs) fun _ => ?_
    exact (ihFirst _ _).bind fun resolution => ihRest _ _ _ _
  case noProperties => exact fun required hint result => .pure fun _ _ hs => hs
  case nextProperty =>
    intro name node rest ihFirst ihRest required hint result
    rw [resolveProperties, resolveProperties]
    exact (ihFirst _ _).bind fun resolution => ihRest _ _ _
  case noItems => exact fun hint => (h.recorded rfl).bind fun _ => .pure fun _ _ hs => hs
  case anyItems => exact fun allowed hint => (h.recorded rfl).bind fun _ => .pure fun _ _ hs => hs
  case items =>
    intro node ih hint
    rw [resolveItems, resolveItems]
    exact (ih _ _).bind fun resolution => h.registerArray rfl rfl hint resolution

/-- **References are followed alike.**

**Proof sketch.** Induction along the components that are not active yet. -/
theorem followReference (active : List ModelName) (target : String) (hint : ModelName) :
    Related R (followReference ⟨document, cut⟩ active target hint)
      (followReference ⟨document', cut'⟩ active target hint) := by
  have hrefused : ∀ target hint error,
      Related R (refuseReference target hint error) (refuseReference target hint error) :=
    fun _ _ _ => (h.recorded rfl).bind fun _ => .pure fun _ _ hs => hs
  induction active, target, hint using followReference.induct ⟨document, cut⟩ with
  | case1 active target hint abort hname =>
    rw [followReference_of_error _ _ _ _ hname, followReference_of_error _ _ _ _ hname]
    exact fun _ _ hs => ⟨rfl, hs⟩
  | case2 active target hint hname =>
    rw [followReference_of_none _ _ _ _ hname, followReference_of_none _ _ _ _ hname]
    exact hrefused _ _ _
  | case3 active target hint id hname ih =>
    rw [followReference_of_some _ _ _ _ hname, followReference_of_some _ _ _ _ hname]
    refine (h.finished? id).bind fun memo => ?_
    cases memo with
    | some resolution => exact .pure fun _ _ hs => hs
    | none =>
      refine .ite (fun _ => .pure fun _ _ hs => hs) fun hactive => ?_
      dsimp only
      rw [Document.findSchema_congr hsame]
      cases hfound : document.findSchema target with
      | error abort => exact fun _ _ hs => ⟨rfl, hs⟩
      | ok found =>
        cases found with
        | error error => exact hrefused _ _ _
        | ok schema =>
          have hschema := (h.resolveSchema_of_follow hsame fun target hint =>
            ih hactive schema hfound target hint).2 schema id false
          refine hschema.bind fun resolution => ?_
          exact (h.memoised id resolution).bind fun _ => .pure fun _ _ hs => hs

/-- **Nodes are resolved alike.** -/
theorem resolve (node : Node) (hint : ModelName) :
    Related R (resolve ⟨document, cut⟩ node hint) (resolve ⟨document', cut'⟩ node hint) :=
  (h.resolveSchema_of_follow hsame (h.followReference hsame [])).1 node hint false

/-- **Components are resolved alike.** -/
theorem resolveComponent (id : String) (node : Node) :
    Related R (resolveComponent ⟨document, cut⟩ id node)
      (resolveComponent ⟨document', cut'⟩ id node) := by
  have hnode := (h.resolveSchema_of_follow hsame (h.followReference hsame [id])).1 node id false
  have hresolved := hnode.bind fun resolution => (h.memoised id resolution).bind fun _ =>
    (Relates.pure (a := some resolution) fun _ _ hs => hs : Related R _ _)
  refine .get fun s s' hs => ?_
  have hmemo : s'.memo.contains id = s.memo.contains id := congrArg _ (h.find? hs id)
  rw [Naming.component, h.contains hs, hmemo]
  have hstart : ∀ t t', t = s ∧ t' = s' → R t t' := by
    rintro _ _ ⟨rfl, rfl⟩
    exact hs
  exact .ite (fun _ => .pure hstart) fun _ =>
    hresolved.mono hstart (fun _ _ _ hs => hs) fun _ _ hs => hs

end Resolver.Respects

/-! ## Resolutions over documents with the same components -/

/-- Equality is respected. -/
theorem Resolver.respects_eq (cut : Option Nat) : Respects cut cut Eq where
  cancelled := by rintro s _ rfl; rfl
  contains := by rintro s _ rfl name; rfl
  find? := by rintro s _ rfl name; rfl
  register := by rintro s _ rfl model; rfl
  record := by rintro s _ rfl diagnostic _; rfl
  memoise := by rintro s _ rfl name resolution; rfl

section Components

variable {document document' : Document} (hsame : document'.components = document.components)

include hsame

/-- **Resolutions depend on the components of a document only.** -/
theorem resolve_congr (cut : Option Nat) : resolve ⟨document', cut⟩ = resolve ⟨document, cut⟩ := by
  funext node hint
  exact (related_eq_iff.1 ((Resolver.respects_eq cut).resolve hsame node hint)).symm

/-- Resolutions of components depend on the components only. -/
theorem resolveComponent_congr (cut : Option Nat) :
    resolveComponent ⟨document', cut⟩ = resolveComponent ⟨document, cut⟩ := by
  funext id node
  exact (related_eq_iff.1 ((Resolver.respects_eq cut).resolveComponent hsame id node)).symm

end Components

end ApiCatalog
