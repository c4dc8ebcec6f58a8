import ApiCatalog.Proofs.Resolution.Interruptions
import ApiCatalog.Proofs.Resolution.Names
import ApiCatalog.Proofs.Resolution.Relations

set_option autoImplicit false

/-!
# The names that a resolution may take

A schema that is written in place registers models under names that go on from its hint, and a
reference under names that go on from the id of a component that it leads to. Apart from the
primitive types, which have names of their own, nothing else is registered: not if the resolution
fails, and not if it is interrupted.

## Main definitions

* `Document.LeadsTo`: the components that a reference leads to, through any number of others.
* `Document.Permits`: the models that may be registered for a hint and for references.
* `ApiCatalog.Adds`: models are kept, and allowed ones come after them.

## Main results

* `ApiCatalog.adds_resolveNode`: the walk registers only what its node permits, whether it answers
  or ends the extraction.
* `OpenRuns.addsThroughout`: so does every run that is interrupted, at every moment.
* `ApiCatalog.resolve_stays_in_name_space`: what a resolution may register.
-/

namespace ApiCatalog

/-! ## Names -/

namespace Naming.Extends

/-- The name of a property goes on from that of the object. -/
theorem property (hint : ModelName) (name : String) : Extends hint (Naming.property hint name) :=
  ⟨'.' :: name.toList, by simp [Naming.property], by rintro _ ⟨⟩; decide⟩

/-- The name of an enumeration goes on from the hint. -/
theorem enumeration (hint : ModelName) (null : Bool) :
    Extends hint (Naming.enumeration hint null) := by
  cases null with
  | false => exact .refl hint
  | true => exact ⟨['?'], by simp [Naming.enumeration], by rintro _ ⟨⟩; decide⟩

end Naming.Extends

/-! ## Name spaces -/

namespace Document

/-- The component schemas that a reference leads to: the one that it names, and those that a
reference in the schema found there leads to. -/
inductive LeadsTo (document : Document) : String → String → Prop
  | names {target id : String} {schema : Schema} (hname : componentName target = .ok (some id))
      (hfound : document.findSchema target = .ok (.ok schema)) : LeadsTo document target id
  | through {target id inner other : String} {schema : Schema}
      (hname : componentName target = .ok (some id))
      (hfound : document.findSchema target = .ok (.ok schema)) (hinner : inner ∈ schema.targets)
      (h : LeadsTo document inner other) : LeadsTo document target other

/-- The models that may be registered for a hint, if there is one, and for references: primitive
types, and models whose names go on from the hint or from the id of a component that one of the
references leads to. -/
inductive Permits (document : Document) (own : Option ModelName) (targets : List String) :
    Model → Prop
  | primitive (kind : PrimitiveKind) : Permits document own targets (.primitive kind)
  | own {hint : ModelName} {model : Model} (hown : own = some hint)
      (hname : Naming.Extends hint model.name) : Permits document own targets model
  | component {target id : String} {model : Model} (htarget : target ∈ targets)
      (hleads : document.LeadsTo target id) (hname : Naming.Extends id model.name) :
      Permits document own targets model

variable {document : Document} {own own' : Option ModelName} {targets targets' : List String}
  {model : Model}

/-- What a reference leads to is a component of the document. -/
theorem LeadsTo.mem_schemaIds {target id : String} (h : document.LeadsTo target id) :
    id ∈ document.schemaIds := by
  induction h with
  | names hname hfound => exact mem_schemaIds_of_findSchema hname hfound
  | through _ _ _ _ ih => exact ih

namespace Permits

/-- More references, and a hint that another one goes on from, permit more models. -/
theorem mono (h : document.Permits own targets model)
    (hown : ∀ hint, own = some hint → ∃ shorter, own' = some shorter ∧
      Naming.Extends shorter hint)
    (htargets : targets ⊆ targets') : document.Permits own' targets' model := by
  cases h with
  | primitive kind => exact .primitive kind
  | own hhint hname =>
    obtain ⟨shorter, hshorter, hextends⟩ := hown _ hhint
    exact .own hshorter (hextends.trans hname)
  | component htarget hleads hname => exact .component (htargets htarget) hleads hname

/-- What is permitted for a component and for the references in its schema is permitted for a
reference to that component. -/
theorem of_component {target id : String} {schema : Schema}
    (hname : componentName target = .ok (some id))
    (hfound : document.findSchema target = .ok (.ok schema))
    (h : document.Permits (some id) schema.targets model) :
    document.Permits own [target] model := by
  cases h with
  | primitive kind => exact .primitive kind
  | own hown hextends =>
    cases hown
    exact .component List.mem_cons_self (.names hname hfound) hextends
  | component hinner hleads hextends =>
    exact .component List.mem_cons_self (.through hname hfound hinner hleads) hextends

/-- A model under the hint itself is permitted. -/
theorem hint {hint : ModelName} (h : model.name = hint) :
    document.Permits (some hint) targets model :=
  .own rfl (h ▸ .refl _)

/-- What a schema calls for before its parts is permitted for its hint. -/
theorem flatModels {schema : Schema} {hint : ModelName} {nullable : Bool}
    (h : model ∈ schema.flatModels hint nullable) : document.Permits (some hint) targets model := by
  rcases Schema.flatModels_cases h with ⟨kind, rfl⟩ | rfl
  · exact .primitive kind
  · exact .own rfl (.enumeration hint _)

end Permits

end Document

/-- The hint under which a node registers models of its own: a reference has none. -/
def Node.ownHint? (hint : ModelName) : Node → Option ModelName
  | .reference _ => none
  | .inline _ => some hint

/-- What is permitted for a node that is part of something is permitted for the whole. -/
theorem Document.Permits.part {document : Document} {node : Node} {hint part : ModelName}
    {targets : List String} {model : Model}
    (h : document.Permits (node.ownHint? part) node.targets model)
    (hname : Naming.Extends hint part) (htargets : node.targets ⊆ targets) :
    document.Permits (some hint) targets model := by
  refine h.mono (fun own hown => ⟨hint, rfl, ?_⟩) htargets
  cases node with
  | reference target => cases hown
  | inline schema =>
    cases hown
    exact hname

/-! ## Additions -/

/-- Models are kept, and allowed ones come after them. -/
def Adds (allowed : Model → Prop) (models models' : List Model) : Prop :=
  ∃ added, models' = models ++ added ∧ ∀ model ∈ added, allowed model

namespace Adds

variable {allowed allowed' : Model → Prop} {models models₁ models₂ : List Model}

/-- Nothing is added. -/
theorem refl (allowed : Model → Prop) (models : List Model) : Adds allowed models models :=
  ⟨[], (List.append_nil _).symm, fun _ h => nomatch h⟩

/-- Additions come one after the other. -/
theorem trans (h : Adds allowed models models₁) (h' : Adds allowed models₁ models₂) :
    Adds allowed models models₂ := by
  obtain ⟨added, rfl, hadded⟩ := h
  obtain ⟨more, rfl, hmore⟩ := h'
  refine ⟨added ++ more, List.append_assoc _ _ _, fun model hmodel => ?_⟩
  exact (List.mem_append.1 hmodel).elim (hadded model) (hmore model)

/-- More may be allowed. -/
theorem mono (h : Adds allowed models models₁) (hall : ∀ model, allowed model → allowed' model) :
    Adds allowed' models models₁ := by
  obtain ⟨added, rfl, hadded⟩ := h
  exact ⟨added, rfl, fun model hmodel => hall model (hadded model hmodel)⟩

/-- A registration adds its model, or nothing. -/
theorem register {model : Model} (h : allowed model) (repository : Repository) :
    Adds allowed repository.models (repository.register model).2.models := by
  rw [Repository.models_register]
  split
  · exact .refl _ _
  · exact ⟨[model], rfl, fun _ hmodel => List.mem_singleton.1 hmodel ▸ h⟩

end Adds

/-! ## The walk -/

section Walk

variable {α : Type} {allowed : Model → Prop} {models : List Model}

/-- The same state twice, in which nothing has been added to certain models but what is allowed. -/
def Confined (allowed : Model → Prop) (models : List Model) (state state' : ResolverState) : Prop :=
  state' = state ∧ Adds allowed models state.repository.models

namespace Confined

/-- A step that keeps the models stays confined. -/
theorem related_of_models {step : Resolver α} (h : ∀ state, ∃ answer state',
    step state = .ok answer state' ∧ state'.repository = state.repository) :
    Related (Confined allowed models) step step := by
  rintro _ state ⟨rfl, hstate⟩
  obtain ⟨answer, state', hstep, hsame⟩ := h state
  rw [hstep]
  exact ⟨rfl, rfl, hsame ▸ hstate⟩

/-- An answer stays confined. -/
theorem related_pure (a : α) :
    Related (Confined allowed models) (pure a : Resolver α) (pure a) :=
  .pure fun _ _ hs => hs

/-- Confined steps one after the other. -/
theorem related_bind {β : Type} {step : Resolver α} {f : α → Resolver β}
    (hstep : Related (Confined allowed models) step step)
    (hrest : ∀ a, Related (Confined allowed models) (f a) (f a)) :
    Related (Confined allowed models) (step >>= f) (step >>= f) :=
  hstep.bind hrest

/-- The end of the extraction stays confined. -/
theorem related_throw (abort : Abort) :
    Related (Confined allowed models) (throw abort : Resolver α) (throw abort) := by
  rintro _ state ⟨rfl, hstate⟩
  exact ⟨rfl, rfl, hstate⟩

/-- The wish to stop leaves the models alone. -/
theorem related_isCancelled :
    Related (Confined allowed models) Resolver.isCancelled Resolver.isCancelled :=
  related_of_models fun state => ⟨_, state, rfl, rfl⟩

/-- The registration of an allowed model stays confined. -/
theorem related_register {model : Model} (h : allowed model) (cancelAt : Option Nat) :
    Related (Confined allowed models) (Resolver.register cancelAt model)
      (Resolver.register cancelAt model) := by
  rintro _ state ⟨rfl, hstate⟩
  exact ⟨rfl, rfl, hstate.trans (.register h _)⟩

/-- The registration of several allowed models stays confined. -/
theorem related_registerAll {step : Resolver α} {registered : List Model} {cancelAt : Option Nat}
    {a : α} (h : ∀ model ∈ registered, allowed model)
    (hstep : ∀ state, step state = .ok a (state.registerAll cancelAt registered)) :
    Related (Confined allowed models) step step := by
  rintro _ state ⟨rfl, hstate⟩
  rw [hstep]
  refine ⟨rfl, rfl, ResolverState.maintains_registerAll
    (fun later => Adds allowed models later.repository.models)
    (fun model hmodel hadds => ?_) hstate⟩
  exact hadds.trans (.register (h model hmodel) _)

/-- A report leaves the models alone. -/
theorem related_record (diagnostic : Diagnostic) :
    Related (Confined allowed models) (Resolver.record diagnostic) (Resolver.record diagnostic) :=
  related_of_models fun state => ⟨(), state.record diagnostic, rfl, rfl⟩

/-- A confined step may be left out after the cancellation. -/
theorem related_unlessCancelled {step : Resolver Resolution}
    (h : Related (Confined allowed models) step step) :
    Related (Confined allowed models) (Resolver.unlessCancelled step)
      (Resolver.unlessCancelled step) :=
  related_bind related_isCancelled fun _ => .ite (fun _ => related_pure _) fun _ => h

/-- A confined step may be left out if its model is registered. -/
theorem related_registerOnce {called : Bool} {name : ModelName} {step : Resolver Bool}
    (h : Related (Confined allowed models) step step) :
    Related (Confined allowed models) (registerOnce called name step)
      (registerOnce called name step) := by
  refine .ite (fun _ => ?_) fun _ => related_pure _
  exact related_bind (related_of_models fun state => ⟨_, state, rfl, rfl⟩) fun _ =>
    .ite (fun _ => related_pure _) fun _ => h

variable (context : Context) {follow : FollowReference} (models)

/-- **A schema registers only what is permitted for its hint and its references**, if references do.

**Proof sketch.** Induction on the parts of the schema. The hint of a part goes on from that of the
schema, and the references of a part are among those of the schema, so that what is permitted for
the part is permitted for the whole. -/
theorem related_resolveNode_of_follow
    (hfollow : ∀ target hint allowed,
      (∀ model, context.document.Permits none [target] model → allowed model) →
      Related (Confined allowed models) (follow target hint) (follow target hint)) :
    (∀ node hint nullable allowed,
      (∀ model, context.document.Permits (node.ownHint? hint) node.targets model → allowed model) →
      Related (Confined allowed models) (resolveNode context follow node hint nullable)
        (resolveNode context follow node hint nullable)) ∧
    ∀ schema hint nullable allowed,
      (∀ model, context.document.Permits (some hint) schema.targets model → allowed model) →
      Related (Confined allowed models) (resolveSchema context follow schema hint nullable)
        (resolveSchema context follow schema hint nullable) := by
  have hwalk := Schema.induction
    (fun node => ∀ hint nullable allowed,
      (∀ model, context.document.Permits (node.ownHint? hint) node.targets model → allowed model) →
      Related (Confined allowed models) (resolveNode context follow node hint nullable)
        (resolveNode context follow node hint nullable))
    (fun schema => ∀ hint nullable allowed,
      (∀ model, context.document.Permits (some hint) schema.targets model → allowed model) →
      Related (Confined allowed models) (resolveSchema context follow schema hint nullable)
        (resolveSchema context follow schema hint nullable))
    (fun members => ∀ offered hint index result allowed,
      (∀ model, context.document.Permits (some hint) (memberTargets members) model →
        allowed model) →
      Related (Confined allowed models)
        (resolveMembers context follow offered members hint index result)
        (resolveMembers context follow offered members hint index result))
    (fun properties => ∀ required hint result allowed,
      (∀ model, context.document.Permits (some hint) (propertyTargets properties) model →
        allowed model) →
      Related (Confined allowed models)
        (resolveProperties context follow required properties hint result)
        (resolveProperties context follow required properties hint result))
    (fun items => ∀ hint allowed,
      (∀ model, context.document.Permits (some hint) (itemTargets items) model → allowed model) →
      Related (Confined allowed models) (resolveItems context follow items hint)
        (resolveItems context follow items hint))
    ?reference ?inline ?composed ?untyped ?typed ?noMembers ?nextMember ?noProperties
    ?nextProperty ?noItems ?anyItems ?items
  exact ⟨hwalk.1, hwalk.2.1⟩
  case reference =>
    intro target hint nullable allowed hspace
    rw [resolveNode]
    rw [Node.targets] at hspace
    exact related_unlessCancelled (hfollow target hint allowed hspace)
  case inline =>
    intro schema ih hint nullable allowed hspace
    rw [resolveNode]
    refine related_unlessCancelled (ih hint nullable allowed fun model hmodel => hspace model ?_)
    rwa [Node.targets]
  case composed =>
    intro schema kind members hshape ih hint nullable allowed hspace
    rw [resolveSchema_of_composition _ _ hshape]
    refine related_bind (Resolver.Respects.ofExcept _) fun offered =>
      related_bind ?_ fun result => ?_
    · refine ih offered hint 0 {} allowed fun model hmodel => hspace model ?_
      exact hmodel.mono (fun own hown => ⟨own, hown, .refl _⟩) (Schema.memberTargets_subset hshape)
    · cases result with
      | none => exact related_pure _
      | some result =>
        exact related_bind (related_register (hspace _ (.hint rfl)) _) fun _ => related_pure _
  case untyped =>
    intro schema hshape htypes hint nullable allowed hspace
    rw [resolveSchema_of_untyped _ _ hshape htypes]
    exact related_bind (related_record _) fun _ => related_pure _
  case typed =>
    intro schema hshape htypes ihProperties ihItems hint nullable allowed hspace
    have hflat : ∀ model ∈ schema.flatModels hint nullable, allowed model :=
      fun model hmodel => hspace model (.flatModels hmodel)
    rw [resolveSchema_of_types _ _ hshape htypes]
    refine related_bind (related_registerAll (fun model hmodel => hflat model
      (List.mem_append_left _ hmodel)) fun state => registerPrimitives_apply _ _ state) fun _ => ?_
    refine related_bind (related_registerAll (fun model hmodel => hflat model
      (List.mem_append_right _ hmodel)) fun state => registerEnumeration_apply _ _ _ _ state)
      fun enumeration => ?_
    refine related_bind (related_registerOnce ?_) fun objectDone => ?_
    · refine related_bind (ihProperties _ hint {} allowed fun model hmodel => hspace model ?_)
        fun result => ?_
      · exact hmodel.mono (fun own hown => ⟨own, hown, .refl _⟩) Schema.propertyTargets_subset
      · exact related_bind related_isCancelled fun _ => .ite (fun _ => related_pure _) fun _ =>
          related_bind (related_register (hspace _ (.hint rfl)) _) fun _ => related_pure _
    · refine related_bind (related_registerOnce (ihItems hint allowed fun model hmodel =>
        hspace model ?_)) fun _ => related_pure _
      exact hmodel.mono (fun own hown => ⟨own, hown, .refl _⟩) Schema.itemTargets_subset
  case noMembers => exact fun offered hint index result allowed _ => related_pure _
  case nextMember =>
    intro member rest ihFirst ihRest offered hint index result allowed hspace
    rw [memberTargets] at hspace
    rw [resolveMembers]
    refine related_bind related_isCancelled fun _ => .ite (fun _ => related_pure _) fun _ => ?_
    refine related_bind (ihFirst _ _ _ fun model hmodel => hspace model ?_) fun resolution =>
      ihRest _ _ _ _ _ fun model hmodel => hspace model ?_
    · exact hmodel.part (.member hint index) (List.subset_append_left _ _)
    · exact hmodel.mono (fun own hown => ⟨own, hown, .refl _⟩) (List.subset_append_right _ _)
  case noProperties => exact fun required hint result allowed _ => related_pure _
  case nextProperty =>
    intro name node rest ihFirst ihRest required hint result allowed hspace
    rw [propertyTargets] at hspace
    rw [resolveProperties]
    refine related_bind (ihFirst _ _ _ fun model hmodel => hspace model ?_) fun resolution =>
      ihRest _ _ _ _ fun model hmodel => hspace model ?_
    · exact hmodel.part (.property hint name) (List.subset_append_left _ _)
    · exact hmodel.mono (fun own hown => ⟨own, hown, .refl _⟩) (List.subset_append_right _ _)
  case noItems =>
    exact fun hint allowed _ => related_bind (related_record _) fun _ => related_pure _
  case anyItems =>
    exact fun _ hint allowed _ => related_bind (related_record _) fun _ => related_pure _
  case items =>
    intro node ih hint allowed hspace
    rw [itemTargets] at hspace
    rw [resolveItems]
    refine related_bind (ih _ _ _ fun model hmodel => hspace model ?_) fun resolution =>
      .ite (fun _ => ?_) fun _ => related_pure _
    · exact hmodel.part (.arrayItem hint) (List.Subset.refl _)
    · exact related_bind (related_register (hspace _ (.hint rfl)) _) fun _ => related_pure _

/-- **References are followed within their name space.**

**Proof sketch.** Induction along the components that are not active yet. What a component that is
entered registers is permitted for its id and for the references in its schema, and so for the
reference. -/
theorem related_followReference (active : List ModelName) (target : String) (hint : ModelName)
    (allowed : Model → Prop)
    (hspace : ∀ model, context.document.Permits none [target] model → allowed model) :
    Related (Confined allowed models) (followReference context active target hint)
      (followReference context active target hint) := by
  have hrefused : ∀ target hint error allowed,
      Related (Confined allowed models) (refuseReference target hint error)
        (refuseReference target hint error) :=
    fun _ _ _ _ => related_bind (related_record _) fun _ => related_pure _
  induction active, target, hint using followReference.induct context generalizing allowed with
  | case1 active target hint abort hname =>
    rw [followReference_of_error _ _ _ _ hname]
    exact related_throw abort
  | case2 active target hint hname =>
    rw [followReference_of_none _ _ _ _ hname]
    exact hrefused _ _ _ _
  | case3 active target hint id hname ih =>
    rw [followReference_of_some _ _ _ _ hname]
    refine related_bind (related_of_models fun state => ⟨_, state, rfl, rfl⟩) fun memo => ?_
    cases memo with
    | some resolution => exact related_pure _
    | none =>
      refine .ite (fun _ => related_pure _) fun hactive => ?_
      cases hfound : context.document.findSchema target with
      | error abort => exact related_throw abort
      | ok found =>
        cases found with
        | error error => exact hrefused _ _ _ _
        | ok schema =>
          refine related_bind ?_ fun resolution => ?_
          · refine (related_resolveNode_of_follow models context (ih hactive schema hfound)).2
              schema id false _ fun model hmodel => ?_
            exact hspace model (hmodel.of_component hname hfound)
          · refine related_bind (related_of_models fun state => ?_) fun _ => related_pure _
            exact ⟨(), state.memoise id resolution, rfl, ResolverState.repository_memoise ..⟩

end Confined

end Walk

/-- The state that a step leaves, whether it answers or ends the extraction. -/
def Resolver.left {α : Type} (step : Resolver α) (state : ResolverState) : ResolverState :=
  match step state with
  | .ok _ state' => state'
  | .error _ state' => state'

/-- **A node registers only what is permitted for it**, whether it is resolved or ends the
extraction. -/
theorem adds_resolveNode (context : Context) (active : List ModelName) (node : Node)
    (hint : ModelName) (nullable : Bool) (state : ResolverState) :
    Adds (context.document.Permits (node.ownHint? hint) node.targets) state.repository.models
      ((resolveNode context (followReference context active) node hint nullable).left
        state).repository.models := by
  have hwalk := (Confined.related_resolveNode_of_follow state.repository.models context
    (Confined.related_followReference _ context active)).1 node hint nullable _ (fun _ => id) state
    state ⟨rfl, .refl _ _⟩
  rw [Resolver.left]
  split <;> next hstep => rw [hstep] at hwalk; exact hwalk.2.2

/-! ## Interrupted runs -/

/-- The hint under which a stage registers models of its own. -/
def Stage.ownHint? {kind : StageKind} : Stage kind → Option ModelName
  | .atNode node hint _ => node.ownHint? hint
  | .atSchema _ hint _ => some hint
  | .atMembers _ _ hint _ _ => some hint
  | .atProperties _ _ hint _ => some hint
  | .atObject _ hint => some hint
  | .atArray _ hint => some hint

/-- At every moment of a trail, and at its end, nothing has been added but what is allowed. -/
def AddsThroughout (allowed : Model → Prop) (begun : OpenState) (trail : List OpenState)
    (ended : OpenState) : Prop :=
  ∀ moment ∈ trail ++ [ended],
    Adds allowed begun.resolver.repository.models moment.resolver.repository.models

namespace AddsThroughout

variable {allowed allowed' : Model → Prop} {begun middle ended : OpenState}
  {trail trail' : List OpenState}

/-- What is added is something that holds throughout. -/
theorem iff_throughout : AddsThroughout allowed begun trail ended ↔
    Throughout (fun state => Adds allowed begun.resolver.repository.models state.repository.models)
      trail ended :=
  Iff.rfl

/-- Nothing is done. -/
theorem nothing (allowed : Model → Prop) (state : OpenState) :
    AddsThroughout allowed state [] state :=
  iff_throughout.2 (.nothing (.refl _ _))

/-- One change. -/
theorem change (h : Adds allowed begun.resolver.repository.models
      ended.resolver.repository.models) : AddsThroughout allowed begun [ended] ended :=
  iff_throughout.2 (.change h)

/-- One trail after another. -/
theorem append (h : AddsThroughout allowed begun trail middle)
    (h' : AddsThroughout allowed middle trail' ended) :
    AddsThroughout allowed begun (trail ++ trail') ended := by
  have hmiddle := (iff_throughout.1 h).last
  exact iff_throughout.2 ((iff_throughout.1 h).append
    ((iff_throughout.1 h').mono fun _ hafter => hmiddle.trans hafter))

/-- More may be allowed. -/
theorem mono (h : AddsThroughout allowed begun trail ended)
    (hall : ∀ model, allowed model → allowed' model) : AddsThroughout allowed' begun trail ended :=
  fun moment hmoment => (h moment hmoment).mono hall

/-- A registration. -/
theorem register {model : Model} (h : allowed model) (cancelAt : Option Nat)
    (state : OpenState) :
    AddsThroughout allowed state [state.register cancelAt model] (state.register cancelAt model) :=
  change (.register h _)

/-- Registrations one after another. -/
theorem registerAll {models : List Model} (h : ∀ model ∈ models, allowed model)
    (cancelAt : Option Nat) (state : OpenState) :
    AddsThroughout allowed state (state.registrations cancelAt models)
      (state.registerAll cancelAt models) :=
  iff_throughout.2 (.registerAll
    (fun model hmodel hadds => hadds.trans (.register (h model hmodel) _)) (.refl _ _))

/-- A component is entered and left. -/
theorem component {id : ModelName} {resolution : Resolution}
    (h : AddsThroughout allowed (begun.enter id) trail ended) :
    AddsThroughout allowed begun
      (begun.enter id :: trail ++ [ended.leave id, (ended.leave id).memoise id resolution])
      ((ended.leave id).memoise id resolution) := by
  refine iff_throughout.2 (.component (.refl _ _) (iff_throughout.1 h) ?_)
  rw [ResolverState.repository_memoise]
  exact (iff_throughout.1 h).last

end AddsThroughout

/-- **An interrupted run registers only what is permitted for its stage**, at every moment.

**Proof sketch.** Induction on the run. As in the walk, what is permitted for a part is permitted
for the whole; a cancellation registers nothing. -/
theorem OpenRuns.addsThroughout {context : Context} {kind : StageKind} {stage : Stage kind}
    {begun ended : OpenState} {answer : kind.Answer} {trail : List OpenState}
    (h : OpenRuns context stage begun answer trail ended) :
    AddsThroughout (context.document.Permits stage.ownHint? stage.targets) begun trail ended := by
  have hsame : ∀ {hint : ModelName} own, some hint = some own →
      ∃ shorter, some hint = some shorter ∧ Naming.Extends shorter own :=
    fun own hown => ⟨own, hown, .refl own⟩
  induction h with
  | cancelBefore _ ih => exact (AddsThroughout.change (.refl _ _)).append ih
  | cancelAfter _ ih => exact ih.append (.change (.refl _ _))
  | cancelled | finished | busy | allMembers | membersLeft | allProperties | noObject | knownObject
  | noArray | knownArray => exact .nothing _ _
  | refused | missing | untyped | noItems | anyItems => exact .change (.refl _ _)
  | inline _ _ ih =>
    rw [Stage.targets, Node.targets]
    exact ih
  | entered _ hname _ _ hfound _ ih =>
    refine (ih.mono fun model hmodel => ?_).component
    rw [Stage.targets, Node.targets]
    exact hmodel.of_component hname hfound
  | composed hshape _ _ ih =>
    refine AddsThroughout.append (ih.mono fun model hmodel => ?_) (.register (.hint rfl) _ _)
    exact hmodel.mono hsame (Schema.memberTargets_subset hshape)
  | abandoned hshape _ _ ih =>
    exact ih.mono fun model hmodel => hmodel.mono hsame (Schema.memberTargets_subset hshape)
  | typed _ _ _ _ ihObject ihArray =>
    refine (AddsThroughout.registerAll (fun model hmodel => .flatModels hmodel) _ _).append ?_
    refine (ihObject.mono fun model hmodel => ?_).append (ihArray.mono fun model hmodel => ?_)
    · exact hmodel.mono hsame Schema.propertyTargets_subset
    · exact hmodel.mono hsame Schema.itemTargets_subset
  | nextMember _ _ _ ihFirst ihRest =>
    rw [Stage.targets, memberTargets]
    refine (ihFirst.mono fun model hmodel => ?_).append (ihRest.mono fun model hmodel => ?_)
    · exact Document.Permits.part hmodel (.member _ _) (List.subset_append_left _ _)
    · exact hmodel.mono hsame (List.subset_append_right _ _)
  | nextProperty _ _ ihFirst ihRest =>
    rw [Stage.targets, propertyTargets]
    refine (ihFirst.mono fun model hmodel => ?_).append (ihRest.mono fun model hmodel => ?_)
    · exact Document.Permits.part hmodel (.property _ _) (List.subset_append_left _ _)
    · exact hmodel.mono hsame (List.subset_append_right _ _)
  | lostObject _ _ _ _ ih => exact ih
  | object _ _ _ _ ih => exact ih.append (.register (.hint rfl) _ _)
  | lostArray _ _ hitems _ _ ih =>
    rw [Stage.targets, hitems, itemTargets]
    exact ih.mono fun model hmodel =>
      Document.Permits.part hmodel (.arrayItem _) (List.Subset.refl _)
  | array _ _ hitems _ _ ih =>
    rw [Stage.targets, hitems, itemTargets]
    refine AddsThroughout.append (ih.mono fun model hmodel => ?_) (.register (.hint rfl) _ _)
    exact Document.Permits.part hmodel (.arrayItem _) (List.Subset.refl _)

/-! ## Resolutions -/

/-- The models that a node may register under a hint: primitive types; if it is written in place,
models whose names begin with the hint; and models whose names begin with the id of a component
schema that is reached from it through references. -/
def Document.NameSpace (document : Document) (node : Node) (hint : ModelName) (model : Model) :
    Prop :=
  (∃ kind, model = .primitive kind) ∨
  ((∃ schema, node = .inline schema) ∧ hint.toList <+: model.name.toList) ∨
  ∃ target ∈ node.targets, ∃ id ∈ document.schemaIds,
    document.LeadsTo target id ∧ id.toList <+: model.name.toList

/-- A name begins with the one that it goes on from. -/
theorem Naming.Extends.prefix_toList {hint name : ModelName} (h : Naming.Extends hint name) :
    hint.toList <+: name.toList := by
  obtain ⟨rest, hrest, -⟩ := h
  exact ⟨rest, hrest.symm⟩

/-- What is permitted for a node is in its name space. -/
theorem Document.Permits.nameSpace {document : Document} {node : Node} {hint : ModelName}
    {model : Model} (h : document.Permits (node.ownHint? hint) node.targets model) :
    document.NameSpace node hint model := by
  cases h with
  | primitive kind => exact .inl ⟨kind, rfl⟩
  | own hown hname =>
    cases node with
    | reference target => cases hown
    | inline schema =>
      cases hown
      exact .inr (.inl ⟨⟨schema, rfl⟩, hname.prefix_toList⟩)
  | component htarget hleads hname =>
    exact .inr (.inr ⟨_, htarget, _, hleads.mem_schemaIds, hleads, hname.prefix_toList⟩)

/-- **A resolution stays in its name space.** From whatever state a node is resolved, the models
that were there are kept, and those that come after them

* are primitive types, or
* have names that begin with the hint, if the node is written in place, or
* have names that begin with the id of a component schema that is reached from the node through one
  or more references.

This holds whether the resolution succeeds, fails or ends the extraction, and at every moment of a
resolution that is interrupted, also one that began while components were in progress. So a schema
without references registers only primitive types and names that begin with its hint. -/
theorem resolve_stays_in_name_space (context : Context) (node : Node) (hint : ModelName) :
    (∀ state : ResolverState,
      Adds (context.document.NameSpace node hint) state.repository.models
        ((resolve context node hint).left state).repository.models) ∧
    (∀ (begun ended : OpenState) (resolution : Resolution) (trail : List OpenState),
      OpenRuns context (.atNode node hint false) begun resolution trail ended →
      ∀ moment ∈ trail ++ [ended], Adds (context.document.NameSpace node hint)
        begun.resolver.repository.models moment.resolver.repository.models) ∧
    (node.targets = [] → ∀ model, context.document.NameSpace node hint model →
      (∃ kind, model = .primitive kind) ∨ hint.toList <+: model.name.toList) := by
  refine ⟨fun state => ?_, fun begun ended resolution trail hrun moment hmoment => ?_,
    fun htargets model hmodel => ?_⟩
  · exact (adds_resolveNode context [] node hint false state).mono fun _ h => h.nameSpace
  · exact (hrun.addsThroughout moment hmoment).mono fun _ h => Document.Permits.nameSpace h
  · rcases hmodel with hprimitive | ⟨-, hname⟩ | ⟨target, htarget, -⟩
    · exact .inl hprimitive
    · exact .inr hname
    · rw [htargets] at htarget
      cases htarget

/-- An object `A` with a property that refers to the object `B`. -/
def recordOfRecord : Document :=
  .ofSchemas [("A", .inline holder), ("B", .inline { types := .ofList [.object] })]

/-- A reference to `A` is resolved under a hint, and interrupted after the property. By then `B` is
registered, which is reached from the reference through `A`, and nothing under the hint. -/
theorem resolve_stays_in_name_space_of_record :
    let context : Context := ⟨recordOfRecord, none⟩
    let node : Node := .reference "#/components/schemas/A"
    ∃ (ended : OpenState) (trail : List OpenState),
      OpenRuns context (.atNode node "h" false) ⟨{}, ∅⟩ ⟨["A"], false⟩ trail ended ∧
      ended.resolver.repository.names = ["B"] ∧
      Adds (recordOfRecord.NameSpace node "h") [] ended.resolver.repository.models := by
  intro context node
  have hfindA : recordOfRecord.schemas.find? "A" = some (.inline holder) := rfl
  have hfindB : recordOfRecord.schemas.find? "B" = some (.inline { types := .ofList [.object] }) :=
    rfl
  have hA : recordOfRecord.findSchema "#/components/schemas/A" = .ok (.ok _) :=
    Document.findSchema_of_inline ⟨rfl, rfl⟩ hfindA
  have hB : recordOfRecord.findSchema "#/components/schemas/B" = .ok (.ok _) :=
    Document.findSchema_of_inline ⟨rfl, rfl⟩ hfindB
  have hschemaB : OpenRuns context (.atSchema { types := .ofList [.object] } "B" false)
      (OpenState.enter (OpenState.enter ⟨{}, ∅⟩ "A") "B")
      ⟨Schema.references { types := .ofList [.object] } "B" false, _ && true⟩ _ _ :=
    .typed rfl rfl (.object rfl rfl .allProperties rfl) (.noArray rfl)
  have hB' : OpenRuns context (.atNode (.reference "#/components/schemas/B") "A.b" false)
      (OpenState.enter ⟨{}, ∅⟩ "A") _ _ _ :=
    .entered rfl rfl rfl (by decide) hB hschemaB
  have hobject : OpenRuns context (.atObject holder "A") (OpenState.enter ⟨{}, ∅⟩ "A") false _ _ :=
    .lostObject rfl rfl (.nextProperty (.cancelAfter hB') .allProperties) rfl
  have hschemaA : OpenRuns context (.atSchema holder "A" false) (OpenState.enter ⟨{}, ∅⟩ "A")
      ⟨Schema.references holder "A" false, false && true⟩ _ _ :=
    .typed rfl rfl hobject (.noArray rfl)
  have hrun : OpenRuns context (.atNode node "h" false) ⟨{}, ∅⟩ ⟨["A"], false⟩ _ _ :=
    .entered rfl rfl rfl (Finset.notMem_empty _) hA hschemaA
  refine ⟨_, _, hrun, rfl, ?_⟩
  exact (resolve_stays_in_name_space context node "h").2.1 _ _ _ _ hrun _
    (List.mem_append_right _ List.mem_cons_self)

end ApiCatalog
