import ApiCatalog.Proofs.Translation.Simulation

set_option autoImplicit false

/-!
# All components

Components are resolved one after another, in any order. If what they are said to denote is
consistent with their translations, then this is what they denote, and the models registered are
those of their translations.

## Main definitions

* `Document.LeadTo`: the active components lead to the one that is walked.
* `Document.RefersByKind`: references to schemas are meant as such.
* `Document.Settled`: what components are said to denote is consistent.
* `ApiCatalog.resolveAll`: the resolution of components in a certain order.

## Main results

* `Document.Settled.follows`: references are followed to what they denote.
* `Document.Settled.resolveAll`: what is known when all components are resolved.
-/

namespace ApiCatalog

namespace Document

/-! ## Entering and leaving a component -/

section Components

variable {document : Document} {answer : String → Resolution} {active : List ModelName}
  {state s : ResolverState} {id : String} {schema : Schema}

/-- A component that is not finished may be entered. -/
theorem Tracks.enter (h : document.Tracks answer active state) (hnew : ¬ state.Finished id) :
    document.Tracks answer (id :: active) state where
  running := h.running
  memo := h.memo
  models := h.models
  idle := by
    intro other hother
    rcases List.mem_cons.1 hother with rfl | hother
    · exact hnew
    · exact h.idle other hother
  owned := h.owned
  fresh := fun other hother => h.fresh other fun hmem => hother (List.mem_cons_of_mem _ hmem)

/-- All of a component that is entered is still to be met. -/
theorem Part.enter (h : document.Tracks answer active state) (hdistinct : document.Distinct)
    (hnew : ¬ state.Finished id) (hid : id ∉ active) :
    document.Part id (document.findingsOf id) state where
  subset := fun _ hmem => hmem
  nodup := hdistinct.nodup_findingsOf id
  fresh := fun name hname => h.fresh id hid hnew name hname

/-- The components that are finished after a memoisation. -/
theorem finished_memoise (hrunning : s.cancelled = false) (resolution : Resolution)
    (other : String) :
    (s.memoise id resolution).Finished other ↔ other = id ∨ s.Finished other := by
  unfold ResolverState.Finished
  rw [ResolverState.find?_memoise hrunning]
  by_cases he : id = other
  · simp [he]
  · simp [he, Ne.symm he]

/-- What is known when a component is left all of which has been met. -/
theorem Tracks.leave
    (he : document.Effect answer (id :: active) (document.findingsOf id) state s
      (document.translationOf answer id).models)
    (hid : id ∉ active) (hfind : (document.schemas.find? id).isSome = true) :
    document.Tracks answer active (s.memoise id (answer id)) where
  running := by simpa using he.tracks.running
  memo := by
    intro other resolution hmemo
    rcases ResolverState.find?_memoise_cases hmemo with hmemo | ⟨rfl, rfl⟩
    · exact he.tracks.memo other resolution hmemo
    · exact ⟨hfind, rfl, he.readable⟩
  models := by
    intro other hother model hmodel
    rw [ResolverState.repository_memoise]
    rcases (finished_memoise he.tracks.running _ other).1 hother with rfl | hother
    · exact (he.built model).2 (.inr (.inl hmodel))
    · exact he.tracks.models other hother model hmodel
  idle := by
    intro other hother hdone
    rcases (finished_memoise he.tracks.running _ other).1 hdone with rfl | hdone
    · exact hid hother
    · exact he.tracks.idle other (List.mem_cons_of_mem _ hother) hdone
  owned := by
    rw [ResolverState.repository_memoise]
    exact he.tracks.owned
  fresh := by
    intro other hother hdone name hname
    rw [finished_memoise he.tracks.running, not_or] at hdone
    rw [ResolverState.repository_memoise]
    refine he.tracks.fresh other (fun hmem => ?_) hdone.2 name hname
    exact (List.mem_cons.1 hmem).elim hdone.1 hother

/-- **A component is left** when all of it has been met: its models are then those of a component
that is finished. -/
theorem Effect.leave
    (he : document.Effect answer (id :: active) (document.findingsOf id) state s
      (document.translationOf answer id).models)
    (hdistinct : document.Distinct) (hid : id ∉ active)
    (hfind : (document.schemas.find? id).isSome = true) :
    document.Effect answer active [] state (s.memoise id (answer id)) [] where
  tracks := .leave he hid hfind
  built := by
    have hfinished : ∀ other, (s.memoise id (answer id)).Finished other ↔
        other = id ∨ s.Finished other := finished_memoise he.tracks.running (answer id)
    intro model
    rw [ResolverState.repository_memoise, he.built]
    constructor
    · rintro (hmodel | hmodel | ⟨other, hother, hmodel⟩)
      · exact .inl hmodel
      · exact .inr (.inr ⟨id, (hfinished id).2 (.inl rfl), hmodel⟩)
      · exact .inr (.inr ⟨other, (hfinished other).2 (.inr hother), hmodel⟩)
    · rintro (hmodel | hmodel | ⟨other, hother, hmodel⟩)
      · exact .inl hmodel
      · cases hmodel
      · rcases (hfinished other).1 hother with rfl | hother
        · exact .inr (.inl hmodel)
        · exact .inr (.inr ⟨other, hother, hmodel⟩)
  finished := fun other hother =>
    (finished_memoise he.tracks.running _ other).2 (.inr (he.finished other hother))
  frame := by
    intro other hother name hname _ hfree
    rw [ResolverState.repository_memoise]
    refine he.frame other (List.mem_cons_of_mem _ hother) name hname (fun hmem => ?_) hfree
    exact hid (hdistinct.owner_unique hname hmem ▸ hother)
  readable := fun _ hmem => nomatch hmem

end Components

/-! ## References -/

/-- A reference that names a component is looked up without trouble if there are no aliases. -/
theorem findSchema_of_componentName {document : Document}
    (hplain : ∀ id, ¬ document.IsAlias id) {target id : String}
    (hname : componentName target = .ok (some id)) :
    (∃ schema, document.schemas.find? id = some (.inline schema) ∧
      document.findSchema target = .ok (.ok schema)) ∨
    ∃ error, document.findSchema target = .ok (.error error) ∧
      (Reference.nameFor .schema target = .ok (.ok id) → document.schemas.find? id = none) := by
  obtain ⟨reference, hpath, rfl⟩ := ofPath_of_componentName hname
  unfold findSchema lookUp
  cases hfor : Reference.nameFor .schema target with
  | error abort =>
    rw [Reference.nameFor, hpath] at hfor
    simp only at hfor
    split at hfor
    · cases hfor
    · split at hfor <;> cases hfor
  | ok found =>
    cases found with
    | error error =>
      right
      refine ⟨error, ?_, fun h => nomatch h⟩
      rw [lookUpFrom, hfor]
    | ok name =>
      obtain ⟨reference', hpath', rfl⟩ := nameFor_eq_of_ofPath hfor
      rw [hpath] at hpath'
      cases hpath'
      rw [lookUpFrom_of_nameFor hfor]
      cases hfind : document.schemas.find? reference.name with
      | none => exact .inr ⟨_, rfl, fun _ => rfl⟩
      | some node =>
        cases node with
        | inline schema => exact .inl ⟨schema, rfl, rfl⟩
        | reference next => exact absurd ⟨next, hfind⟩ (hplain reference.name)

/-- A reference that is met in a component is in that component. -/
theorem Uses.refersTo {document : Document} {id other : String} (h : document.Uses id other) :
    document.RefersTo id other := by
  obtain ⟨target, hmet, hname⟩ := h
  obtain ⟨schema, hfind⟩ := exists_of_mem_findingsOf hmet
  rw [findingsOf_of_find? hfind] at hmet
  exact ⟨.inline schema, hfind, target, mem_targets_of_findings hmet,
    targetName?_of_componentName hname⟩

/-- A component that comes back to itself by references that are met lies on a cycle. -/
theorem onCycle_of_uses {document : Document} {id : String}
    (h : Relation.TransGen document.Uses id id) : document.OnCycle id := by
  have hle : document.Uses ≤ document.RefersTo := fun _ _ huses => huses.refersTo
  exact Relation.TransGen.mono hle _ _ h

/-- All active components lead to a certain one, by references that are met. -/
def LeadTo (document : Document) (active : List ModelName) (current : String) : Prop :=
  ∀ id ∈ active, id = current ∨ Relation.TransGen document.Uses id current

/-- A component to which the current one refers may be entered. -/
theorem LeadTo.enter {document : Document} {active : List ModelName} {current id : String}
    (h : document.LeadTo active current) (huses : document.Uses current id) :
    document.LeadTo (id :: active) id := by
  intro other hother
  rcases List.mem_cons.1 hother with rfl | hother
  · exact .inl rfl
  · rcases h other hother with rfl | hother
    · exact .inr (.single huses)
    · exact .inr (hother.tail huses)

/-- What a reference to a component denotes. -/
theorem follow_of_componentName {document : Document} {answer : String → Resolution}
    {current target id : String} (hname : componentName target = .ok (some id)) :
    document.follow answer current target =
      if id = current then .single id true
      else if (document.schemas.find? id).isSome then answer id else .failed := by
  rw [follow, hname]

/-- A step without findings may be one at a reference that can be taken apart. -/
theorem Effect.atReference {document : Document} {answer : String → Resolution}
    {active : List ModelName} {state s : ResolverState} {target id : String}
    (he : document.Effect answer active [] state s [])
    (hname : componentName target = .ok (some id)) :
    document.Effect answer active [.reference target] state s [] := by
  refine he.widen (List.nil_subset _) fun finding hf => ?_
  obtain rfl := List.mem_singleton.1 hf
  exact .inr ⟨some id, hname⟩

/-- No reference that is met names a component schema as a component of another kind. -/
def RefersByKind (document : Document) : Prop :=
  ∀ current target other, .reference target ∈ document.findingsOf current →
    componentName target = .ok (some other) → other ∈ document.schemaIds →
    Reference.nameFor .schema target = .ok (.ok other)

/-- What components are said to denote is consistent: with their translations, and on cycles of
several components with the ids that references back are answered with. Besides, nothing but
references to schemas leads to components, which are no aliases, and no name belongs to two
places. -/
structure Settled (document : Document) (answer : String → Resolution) : Prop where
  plain : ∀ id, ¬ document.IsAlias id
  distinct : document.Distinct
  kinds : document.RefersByKind
  answers : ∀ id schema, document.schemas.find? id = some (.inline schema) →
    answer id = (document.translationOf answer id).resolution
  cycles : ∀ id other, id ≠ other → Relation.TransGen document.Uses id other →
    Relation.TransGen document.Uses other id → answer id = .single id true

namespace Settled

variable {document : Document} {answer : String → Resolution} (h : document.Settled answer)

include h

/-- A component that is walked from a state in which it is not finished is finished then. -/
theorem ends_component {active : List ModelName} {id : String} {schema : Schema}
    {state : ResolverState} (hfind : document.schemas.find? id = some (.inline schema))
    (hid : id ∉ active) (hnew : ¬ state.Finished id) (htracks : document.Tracks answer active state)
    (hfollows : document.Follows answer (id :: active) id
      (followReference ⟨document, none⟩ (id :: active))) :
    Resolver.Ends (¬ document.Readable)
      (resolveSchema ⟨document, none⟩ (followReference ⟨document, none⟩ (id :: active)) schema id
        false) state fun resolution s => resolution = answer id ∧
          document.Effect answer active [] state (s.memoise id (answer id)) [] := by
  have hwalks : document.Walks answer (id :: active) id
      (followReference ⟨document, none⟩ (id :: active)) :=
    ⟨h.distinct, List.mem_cons_self, hfollows⟩
  have hpart := Part.enter htracks h.distinct hnew hid
  rw [findingsOf_of_find? hfind] at hpart
  refine (meets_schema hwalks schema id false state (htracks.enter hnew) hpart).mono ?_
  rintro _ s ⟨rfl, he⟩
  rw [← translationOf_of_find? hfind, ← findingsOf_of_find? hfind] at he
  rw [← translationOf_of_find? hfind, ← h.answers id schema hfind]
  exact ⟨rfl, he.leave h.distinct hid (by rw [hfind]; rfl)⟩

omit h in
/-- A finished component is what a reference to it denotes. -/
theorem follow_of_memo {active : List ModelName} {current target id : String}
    {state : ResolverState} {resolution : Resolution}
    (htracks : document.Tracks answer active state) (hcurrent : current ∈ active)
    (hname : componentName target = .ok (some id))
    (hmemo : state.memo.find? id = some resolution) :
    document.follow answer current target = resolution := by
  obtain ⟨hsome, rfl, -⟩ := htracks.memo id resolution hmemo
  have hne : id ≠ current := by
    rintro rfl
    exact htracks.idle id hcurrent ⟨_, hmemo⟩
  rw [follow_of_componentName hname, if_neg hne, if_pos hsome]

/-- The id of an active component is what a reference back to it denotes. -/
theorem follow_of_active {active : List ModelName} {current target id : String}
    (hlead : document.LeadTo active current)
    (hmet : .reference target ∈ document.findingsOf current)
    (hname : componentName target = .ok (some id)) (hactive : id ∈ active) :
    document.follow answer current target = .single id true := by
  rw [follow_of_componentName hname]
  by_cases he : id = current
  · rw [if_pos he]
  · have hback := (hlead id hactive).resolve_left he
    have huses : document.Uses current id := ⟨target, hmet, hname⟩
    obtain ⟨_, ⟨_, hfirst, -⟩, -⟩ := Relation.TransGen.head'_iff.1 hback
    obtain ⟨schema, hfind⟩ := exists_of_mem_findingsOf hfirst
    rw [if_neg he, hfind, h.cycles id current he hback (.single huses)]
    rfl

/-- A reference that leads nowhere denotes nothing. -/
theorem find?_eq_none_of_missing {current target id : String}
    (hmet : .reference target ∈ document.findingsOf current)
    (hname : componentName target = .ok (some id))
    (hmissing : Reference.nameFor .schema target = .ok (.ok id) →
      document.schemas.find? id = none) : document.schemas.find? id = none := by
  by_contra hsome
  obtain ⟨node, hfind⟩ := Option.ne_none_iff_exists'.1 hsome
  have hid : id ∈ document.schemaIds := SortedMap.mem_keys_of_find? hfind
  exact hsome (hmissing (h.kinds current target id hmet hname hid))

/-- **References are followed to what they denote.**

**Proof sketch.** Induction along the components that are not active yet. A reference back to an
active component is answered with its id. If that is not the component in which the reference
stands, both lie on a cycle, so that the id is also what the component denotes. -/
theorem follows (active : List ModelName) (target : String) (hint : ModelName) :
    ∀ current ∈ active, document.LeadTo active current →
      document.Meets answer active current [.reference target]
        (followReference ⟨document, none⟩ active target hint)
        (document.follow answer current target) [] := by
  induction active, target, hint using followReference.induct ⟨document, none⟩ with
  | case1 active target hint abort hname =>
    intro current _ _ state _ hpart
    rw [followReference_of_error _ _ _ _ hname]
    refine .of_error (Resolver.throw_apply abort) fun hreadable => ?_
    obtain ⟨name, hok⟩ := hreadable current _ (hpart.subset (List.mem_singleton_self _))
    rw [hname] at hok
    cases hok
  | case2 active target hint hname =>
    intro current hcurrent _
    rw [followReference_of_none _ _ _ _ hname]
    have hfollow : document.follow answer current target = .failed := by
      rw [follow, hname]
    rw [hfollow]
    exact Meets.cons (Meets.map hcurrent (.record _) (.pure _)) ⟨none, hname⟩
  | case3 active target hint id hname ih =>
    intro current hcurrent hlead state htracks hpart
    have hmet := hpart.subset (List.mem_singleton_self _)
    rw [followReference_of_some _ _ _ _ hname]
    refine .bind_ok (Resolver.finished?_apply id) ?_
    cases hmemo : state.memo.find? id with
    | some resolution =>
      rw [follow_of_memo htracks hcurrent hname hmemo]
      exact .of_ok rfl ⟨rfl, (Effect.refl htracks).atReference hname⟩
    | none =>
      by_cases hactive : id ∈ active
      · simp only [hactive, if_true]
        rw [h.follow_of_active hlead hmet hname hactive]
        exact .of_ok rfl ⟨rfl, (Effect.refl htracks).atReference hname⟩
      · have hne : id ≠ current := fun he => hactive (he ▸ hcurrent)
        simp only [hactive, if_false]
        rw [follow_of_componentName hname, if_neg hne]
        rcases findSchema_of_componentName h.plain hname with
          ⟨schema, hfind, hfound⟩ | ⟨error, hfound, hmissing⟩
        · have hnew : ¬ state.Finished id := by
            rintro ⟨resolution, hdone⟩
            rw [hmemo] at hdone
            cases hdone
          have hentered := hlead.enter ⟨target, hmet, hname⟩
          rw [hfound, hfind]
          refine .bind ((h.ends_component hfind hactive hnew htracks fun inner hint' =>
            ih hactive schema hfound inner hint' id List.mem_cons_self hentered).mono ?_)
          rintro _ s ⟨rfl, he⟩
          exact .of_ok rfl ⟨rfl, he.atReference hname⟩
        · rw [hfound, h.find?_eq_none_of_missing hmet hname hmissing]
          exact .of_ok rfl ⟨rfl, (Effect.record htracks _).atReference hname⟩

end Settled

end Document

/-! ## One component after another -/

/-- Resolves components in the order in which they are listed. -/
def resolveAll (context : Context) : List (String × Node) → Resolver Unit
  | [] => pure ()
  | (id, node) :: rest => do
    let _ ← resolveComponent context id node
    resolveAll context rest

namespace Document.Settled

variable {document : Document} {answer : String → Resolution} (h : document.Settled answer)

include h

/-- After a component has been resolved it is finished, and nothing else has been done but to finish
components. -/
theorem ends_resolveComponent {id : String} {node : Node} {state : ResolverState}
    (hfind : document.schemas.find? id = some node) (htracks : document.Tracks answer [] state) :
    Resolver.Ends (¬ document.Readable) (resolveComponent ⟨document, none⟩ id node) state
      fun _ s => document.Effect answer [] [] state s [] ∧ s.Finished id := by
  cases node with
  | reference next => exact absurd ⟨next, hfind⟩ (h.plain id)
  | inline schema =>
    unfold resolveComponent
    refine .bind_ok Resolver.get_apply ?_
    split
    · next hknown =>
      refine .of_ok rfl ⟨.refl htracks, ?_⟩
      rw [Bool.or_eq_true] at hknown
      rcases hknown with hknown | hknown
      · -- the id is free as long as the component is not finished
        by_contra hnew
        have hfree := htracks.fresh id List.not_mem_nil hnew id (Document.owns_self hfind)
        rw [Naming.component, hfree] at hknown
        cases hknown
      · exact Option.isSome_iff_exists.1 hknown
    · next hknown =>
      have hnew : ¬ state.Finished id := by
        rintro ⟨resolution, hmemo⟩
        refine hknown (Bool.or_eq_true_iff.2 (.inr ?_))
        rw [OrderedMap.contains, Naming.component, hmemo]
        rfl
      rw [resolveNode]
      refine .bind (.unlessCancelled htracks.running ((h.ends_component hfind List.not_mem_nil hnew
        htracks fun target hint => ?_).mono ?_))
      · refine h.follows [id] target hint id List.mem_cons_self fun other hother => ?_
        exact .inl (List.mem_singleton.1 hother)
      · rintro _ s ⟨rfl, he⟩
        refine .of_ok rfl ⟨he, ?_⟩
        have hrunning : s.cancelled = false := by
          have hafter := he.tracks.running
          rwa [ResolverState.cancelled_memoise] at hafter
        exact (Document.finished_memoise hrunning _ id).2 (.inl rfl)

/-- After components have been resolved they are finished, and nothing else has been done but to
finish components. -/
theorem ends_resolveAll {entries : List (String × Node)} {state : ResolverState}
    (hentries : ∀ entry ∈ entries, document.schemas.find? entry.1 = some entry.2)
    (htracks : document.Tracks answer [] state) :
    Resolver.Ends (¬ document.Readable) (resolveAll ⟨document, none⟩ entries) state fun _ s =>
      document.Effect answer [] [] state s [] ∧ ∀ entry ∈ entries, s.Finished entry.1 := by
  induction entries generalizing state with
  | nil => exact .of_ok rfl ⟨.refl htracks, fun _ hentry => nomatch hentry⟩
  | cons entry rest ih =>
    obtain ⟨id, node⟩ := entry
    rw [resolveAll]
    refine .bind ((h.ends_resolveComponent (hentries _ List.mem_cons_self) htracks).mono ?_)
    rintro _ s ⟨he, hid⟩
    refine (ih (fun other hother => hentries other (List.mem_cons_of_mem _ hother))
      he.tracks).mono ?_
    rintro _ s' ⟨he', hrest⟩
    refine ⟨he.trans he', fun other hother => ?_⟩
    rcases List.mem_cons.1 hother with rfl | hother
    · exact he'.finished id hid
    · exact hrest other hother

end Document.Settled

/-- At first no component is finished. -/
theorem not_finished_initial (id : String) : ¬ ({} : ResolverState).Finished id := by
  rintro ⟨resolution, hmemo⟩
  cases hmemo

/-- Nothing has been resolved yet. -/
theorem Document.tracks_initial (document : Document) (answer : String → Resolution) :
    document.Tracks answer [] {} where
  running := rfl
  memo := fun _ _ hmemo => nomatch hmemo
  models := fun id hid => absurd hid (not_finished_initial id)
  idle := fun _ hid => nomatch hid
  owned := fun _ hmodel => nomatch hmodel
  fresh := fun _ _ _ _ _ => rfl

/-- What is known when all components are resolved: the models of their translations are registered,
and no others, and each component denotes what it is said to. -/
structure Document.Complete (document : Document) (answer : String → Resolution)
    (state : ResolverState) : Prop where
  models : ∀ model, model ∈ state.repository.models ↔
    ∃ id, model ∈ (document.translationOf answer id).models
  memo : ∀ id, state.memo.find? id =
    if (document.schemas.find? id).isSome then some (answer id) else none
  readable : document.Readable

/-- The model of a name is the one that has it. -/
theorem Repository.find?_eq_some_iff {repository : Repository} {name : ModelName} {model : Model} :
    repository.find? name = some model ↔ model ∈ repository.models ∧ model.name = name := by
  constructor
  · intro hfind
    exact ⟨List.mem_of_find?_eq_some hfind, by simpa using List.find?_some hfind⟩
  · rintro ⟨hmodel, hname⟩
    cases hfind : repository.find? name with
    | none => exact absurd hname (by simpa using List.find?_eq_none.1 hfind model hmodel)
    | some found =>
      have hfound : found.name = name := by simpa using List.find?_some hfind
      rw [List.inj_on_of_nodup_map repository.nodup_names (List.mem_of_find?_eq_some hfind) hmodel
        (hfound.trans hname.symm)]

namespace Document.Complete

variable {document : Document} {answer : String → Resolution} {state state' : ResolverState}

/-- What is known when all components are finished, and nothing else has been done. -/
theorem of_finished (he : document.Effect answer [] [] {} state [])
    (hall : ∀ id, (document.schemas.find? id).isSome = true → state.Finished id) :
    document.Complete answer state where
  models := by
    intro model
    rw [he.built]
    constructor
    · rintro (hmodel | hmodel | ⟨id, -, hmodel⟩)
      · cases hmodel
      · cases hmodel
      · exact ⟨id, hmodel⟩
    · rintro ⟨id, hmodel⟩
      refine .inr (.inr ⟨id, hall id ?_, hmodel⟩)
      cases hfind : document.schemas.find? id with
      | some node => rfl
      | none =>
        rw [translationOf, hfind] at hmodel
        cases hmodel
  memo := by
    intro id
    split
    · next hsome =>
      obtain ⟨resolution, hmemo⟩ := hall id hsome
      rw [hmemo, (he.tracks.memo id resolution hmemo).2.1]
    · next hnone =>
      refine ResolverState.find?_eq_none ?_
      rintro ⟨resolution, hmemo⟩
      exact hnone (he.tracks.memo id resolution hmemo).1
  readable := by
    intro id finding hfinding
    obtain ⟨schema, hfind⟩ := exists_of_mem_findingsOf hfinding
    obtain ⟨resolution, hmemo⟩ := hall id (by rw [hfind]; rfl)
    exact (he.tracks.memo id resolution hmemo).2.2 finding hfinding

/-- The model of a name is the one that some translation has for it. -/
theorem find?_eq_some_iff (h : document.Complete answer state) {name : ModelName} {model : Model} :
    state.repository.find? name = some model ↔
      ∃ id, model ∈ (document.translationOf answer id).models ∧ model.name = name := by
  rw [Repository.find?_eq_some_iff, h.models, exists_and_right]

/-- The same models are known of any two states in which all components are resolved. -/
theorem find?_eq (h : document.Complete answer state) (h' : document.Complete answer state')
    (name : ModelName) : state.repository.find? name = state'.repository.find? name := by
  refine Option.ext fun model => ?_
  rw [h.find?_eq_some_iff, h'.find?_eq_some_iff]

/-- A component has its answer when all of them are resolved. -/
theorem memo_eq (h : document.Complete answer state) {id : String}
    (hid : id ∈ document.schemaIds) : state.memo.find? id = some (answer id) := by
  rw [h.memo, if_pos (SortedMap.isSome_find?_of_mem_keys hid)]

end Document.Complete

/-- **All components are resolved to what they are said to denote, in any order**, unless a
reference cannot be taken apart.

**Proof sketch.** Each of them is finished, and `Document.Tracks` says what is known of finished
components. -/
theorem Document.Settled.resolveAll {document : Document} {answer : String → Resolution}
    (h : document.Settled answer) {order : List (String × Node)}
    (horder : order.Perm document.schemas.entries) :
    Resolver.Ends (¬ document.Readable) (ApiCatalog.resolveAll ⟨document, none⟩ order) {}
      fun _ state => document.Complete answer state := by
  refine (h.ends_resolveAll (fun entry hentry =>
    SortedMap.find?_of_mem_entries (horder.mem_iff.1 hentry))
    (document.tracks_initial answer)).mono ?_
  rintro _ s ⟨he, hall⟩
  refine .of_finished he fun id hsome => ?_
  obtain ⟨node, hfind⟩ := Option.isSome_iff_exists.1 hsome
  exact hall _ (horder.mem_iff.2 (SortedMap.mem_entries_of_find? hfind))

end ApiCatalog
