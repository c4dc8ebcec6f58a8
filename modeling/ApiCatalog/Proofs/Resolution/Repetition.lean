import ApiCatalog.Proofs.Resolution.Entrances
import ApiCatalog.Proofs.Resolution.Exposure

set_option autoImplicit false

/-!
# Resolving a node twice in a row

What was resolved with success is found again as it is, and nothing is left to be done. What failed
is walked again where nothing was registered: it fails again if it is exposed, and the arrays that
it unlocks are registered.

## Main definitions

* `ResolverState.Resumes`: a state in which a part is resolved again after others.
* `Node.Repeats`, `Schema.Repeats`, `ApiCatalog.MembersRepeat`: what is resolved again does as it
  is exposed and unlocks.

## Main results

* `ApiCatalog.leftAlone_node`: what was resolved with success is left as it is.
* `ApiCatalog.repeats_node`: what becomes of a node that is resolved again.
* `ApiCatalog.resolve_again`: when a node is resolved again to the same, and nothing is registered.
* `ApiCatalog.forgotten_lostTags`: a failure that is forgotten.
-/

namespace ApiCatalog

/-! ## What succeeded -/

section Repetition

variable {context : Context}

/-- The object of a schema is there in a state in which the schema was resolved before. -/
theorem Runs.object_again {schema : Schema} {hint : ModelName} {done : Bool}
    {state state' final again : ResolverState}
    (h : Runs context [] (.atObject schema hint) state done state')
    (hgrows : state'.Grows final) (hlive : final.cancelled = false)
    (hkept : ∀ name, final.repository.contains name = true →
      again.repository.contains name = true) :
    Runs context [] (.atObject schema hint) again true again := by
  cases h with
  | noObject hnone => exact .noObject hnone
  | knownObject hobject hknown =>
    exact .knownObject hobject (hkept hint (hgrows.contains hknown))
  | lostObject _ _ _ hcancelled =>
    rw [hgrows.cancelled hcancelled] at hlive
    cases hlive
  | object hobject =>
    exact .knownObject hobject (hkept hint (hgrows.contains Repository.contains_register_self))

/-- The models that a schema calls for by itself are there in a state in which the schema was
resolved before. -/
theorem registerAll_again {schema : Schema} {hint : ModelName} {nullable : Bool}
    {state final again : ResolverState}
    (hgrows : (state.registerAll context.cancelAt (schema.flatModels hint nullable)).Grows final)
    (hkept : ∀ name, final.repository.contains name = true →
      again.repository.contains name = true) :
    again.registerAll context.cancelAt (schema.flatModels hint nullable) = again :=
  registerAll_of_contained fun _ hmodel =>
    hkept _ (hgrows.contains (contains_registerAll hmodel))

/-- If members were resolved with success, so were those before. -/
theorem Runs.succeeded_of_members {active : List ModelName} {offered : Bool} {members : List Node}
    {hint : ModelName} {index : Nat} {result out : MemberResult} {state state' : ResolverState}
    (h : Runs context active (.atMembers offered members hint index result) state (some out) state')
    (hout : out.succeeded = true) : result.succeeded = true := by
  induction members generalizing index result state with
  | nil =>
    cases h
    exact hout
  | cons member rest ih =>
    cases h with
    | nextMember _ _ hrest =>
      have hadd := ih hrest
      rw [MemberResult.succeeded_add, Bool.and_eq_true] at hadd
      exact hadd.1

/-- A stage that was taken with success is left as it is: in a later state it gives the same, and
nothing is left to be done. -/
def Stage.LeftAlone (context : Context) {kind : StageKind} (stage : Stage kind)
    (success : kind.Answer → Prop) : Prop :=
  ∀ state answer state' final, Runs context [] stage state answer state' → state'.Grows final →
    final.cancelled = false → success answer → Runs context [] stage final answer final

/-- **What was resolved with success is left as it is.**

**Proof sketch.** Induction on the parts of schemas. References were answered from the memo or are
in the memo now, and the models of schemas are registered. -/
theorem leftAlone_node (context : Context) (node : Node) : ∀ hint nullable,
    (Stage.atNode node hint nullable).LeftAlone context fun answer => answer.succeeded = true := by
  refine (Schema.induction
    (fun node => ∀ hint nullable, (Stage.atNode node hint nullable).LeftAlone context
      fun answer => answer.succeeded = true)
    (fun schema => ∀ hint nullable, (Stage.atSchema schema hint nullable).LeftAlone context
      fun answer => answer.succeeded = true)
    (fun members => ∀ offered hint index result,
      (Stage.atMembers offered members hint index result).LeftAlone context
        fun answer => ∃ out, answer = some out ∧ out.succeeded = true)
    (fun _ => True) (fun _ => True)
    ?reference ?inline ?composed ?untyped ?typed ?noMembers ?nextMember trivial
    (fun _ _ _ _ _ => trivial) trivial (fun _ => trivial) (fun _ _ => trivial)).1 node
  case reference =>
    intro target hint nullable state resolution state' final hrun hgrows hlive hsucceeded
    cases hrun with
    | cancelled | refused | missing => cases hsucceeded
    | finished _ hname hmemo => exact .finished hlive hname (hgrows.memo _ _ hmemo)
    | busy _ _ _ hactive => cases hactive
    | entered _ hname _ _ _ hrun =>
      have hactive := hgrows.not_cancelled hlive
      rw [ResolverState.cancelled_memoise] at hactive
      refine .finished hlive hname (hgrows.memo _ _ ?_)
      rw [ResolverState.find?_memoise hactive, if_pos rfl]
  case inline =>
    intro schema ih hint nullable state resolution state' final hrun hgrows hlive hsucceeded
    cases hrun with
    | cancelled => cases hsucceeded
    | inline _ hschema => exact .inline hlive (ih _ _ _ _ _ _ hschema hgrows hlive hsucceeded)
  case composed =>
    intro schema kind members hshape ih hint nullable state resolution state' final hrun hgrows
      hlive hsucceeded
    obtain ⟨offered, answer, middle, hoffered, hmembers, hend⟩ := hrun.of_composition hshape
    rcases hend with ⟨-, rfl, -⟩ | ⟨result, rfl, rfl, rfl⟩
    · cases hsucceeded
    · have hagain := ih _ _ _ _ _ _ _ _ hmembers
        ((ResolverState.Grows.register _ _ _).trans hgrows) hlive ⟨_, rfl, hsucceeded⟩
      have hknown := hgrows.contains Repository.contains_register_self
      have hrun : Runs context [] (.atSchema schema hint nullable) final _ _ :=
        .composed hshape hoffered hagain
      rwa [register_of_contained hknown] at hrun
  case untyped =>
    intro schema hshape htypes hint nullable state resolution state' final hrun _ _ hsucceeded
    obtain ⟨rfl, -⟩ := hrun.of_untyped hshape htypes
    cases hsucceeded
  case typed =>
    intro schema hshape htypes _ _ hint nullable state resolution state' final hrun hgrows hlive
      hsucceeded
    obtain ⟨objectDone, middle, arrayDone, hobject, harray, rfl⟩ := hrun.of_types hshape htypes
    obtain ⟨rfl, rfl⟩ := Bool.and_eq_true_iff.1 hsucceeded
    have hagain := registerAll_again (hobject.grows.trans (harray.grows.trans hgrows)) fun _ h => h
    have hobject' := hobject.object_again (harray.grows.trans hgrows) hlive fun _ h => h
    have harray' : Runs context [] (.atArray schema hint) final true final := by
      cases harray with
      | noArray hnone => exact .noArray hnone
      | knownArray hcalled hknown => exact .knownArray hcalled (hgrows.contains hknown)
      | array hcalled =>
        exact .knownArray hcalled (hgrows.contains Repository.contains_register_self)
    exact .typed hshape htypes (hagain.symm ▸ hobject') harray'
  case noMembers =>
    intro offered hint index result state answer state' final hrun _ _ _
    cases hrun
    exact .allMembers
  case nextMember =>
    intro member rest ihFirst ihRest offered hint index result state answer state' final hrun hgrows
      hlive hsucceeded
    cases hrun with
    | membersLeft =>
      obtain ⟨out, hout, -⟩ := hsucceeded
      cases hout
    | nextMember _ hfirst hrest =>
      obtain ⟨out, rfl, hout⟩ := hsucceeded
      have hadd := hrest.succeeded_of_members hout
      rw [MemberResult.succeeded_add, Bool.and_eq_true] at hadd
      exact .nextMember hlive (ihFirst _ _ _ _ _ _ hfirst (hrest.grows.trans hgrows) hlive hadd.2)
        (ihRest _ _ _ _ _ _ _ _ hrest hgrows hlive ⟨out, rfl, hout⟩)

/-! ## What becomes of a node that is resolved again -/

/-- A state in which a part is resolved again after others: it holds what there was in the end, and
no more than that under the names that are free. -/
structure ResolverState.Resumes (final again : ResolverState) (free : ModelName → Prop) : Prop where
  live : again.cancelled = false
  memo : again.memo = final.memo
  kept : ∀ name, final.repository.contains name = true → again.repository.contains name = true
  fresh : ∀ name, free name → again.repository.contains name = true →
    final.repository.contains name = true

/-- Fewer names may be free. -/
theorem ResolverState.Resumes.mono {final again : ResolverState} {free free' : ModelName → Prop}
    (h : final.Resumes again free) (hfree : ∀ name, free' name → free name) :
    final.Resumes again free' :=
  ⟨h.live, h.memo, h.kept, fun name hname => h.fresh name (hfree name hname)⟩

/-- A stage is taken again. It answers and finishes no component; and unless the extraction is
cancelled by then, it succeeds if it is not exposed, and registers what is unlocked. -/
def Stage.Repeats (context : Context) (again : ResolverState) {kind : StageKind}
    (stage : Stage kind) (success : kind.Answer → Prop) (exposed : Prop)
    (unlocks : ModelName → Prop) : Prop :=
  ∃ answer again', Runs context [] stage again answer again' ∧ again'.memo = again.memo ∧
    (again'.cancelled = false → (success answer ↔ ¬ exposed) ∧
      ∀ name, again'.repository.contains name = true ↔
        again.repository.contains name = true ∨ unlocks name)

/-- A stage that answers at once and changes nothing but the diagnostics is taken again. -/
theorem Stage.Repeats.at_once {again again' : ResolverState} {kind : StageKind}
    {stage : Stage kind} {success : kind.Answer → Prop} {exposed : Prop}
    {unlocks : ModelName → Prop} {answer : kind.Answer}
    (h : Runs context [] stage again answer again') (hmemo : again'.memo = again.memo)
    (hmodels : again'.repository = again.repository) (hsuccess : success answer ↔ ¬ exposed)
    (hnone : ∀ name, ¬ unlocks name) :
    stage.Repeats context again success exposed unlocks :=
  ⟨answer, again', h, hmemo, fun _ => ⟨hsuccess, fun name => by simp [hmodels, hnone]⟩⟩

/-- A node can be resolved again. -/
def Node.Repeats (context : Context) (node : Node) : Prop :=
  ∀ hint nullable state answer state' final again,
    Runs context [] (.atNode node hint nullable) state answer state' → state'.Grows final →
    final.cancelled = false → final.Resumes again (Naming.Extends hint) →
    (Stage.atNode node hint nullable).Repeats context again (fun answer => answer.succeeded = true)
      (Exposed final node hint) (Unlocks final node hint)

/-- A schema can be resolved again. -/
def Schema.Repeats (context : Context) (schema : Schema) : Prop :=
  ∀ hint nullable state answer state' final again,
    Runs context [] (.atSchema schema hint nullable) state answer state' → state'.Grows final →
    final.cancelled = false → final.Resumes again (Naming.Extends hint) →
    (Stage.atSchema schema hint nullable).Repeats context again
      (fun answer => answer.succeeded = true)
      (Exposed final (.inline schema) hint) (Unlocks final (.inline schema) hint)

/-- Members can be resolved again, whatever has become of the members before them. -/
def MembersRepeat (context : Context) (members : List Node) : Prop :=
  ∀ offered hint index result state answer state' final again,
    Runs context [] (.atMembers offered members hint index result) state answer state' →
    state'.Grows final → final.cancelled = false →
    (final.Resumes again fun name => ∃ i ≥ index, Naming.Extends (Naming.member hint i) name) →
    ∀ result' : MemberResult, (Stage.atMembers offered members hint index result').Repeats context
      again (fun answer => ∃ out, answer = some out ∧ out.succeeded = true)
      (result'.succeeded = false ∨ ∃ i member, members[i]? = some member ∧
        Exposed final member (Naming.member hint (index + i)))
      (fun name => ∃ i member, members[i]? = some member ∧
        Unlocks final member (Naming.member hint (index + i)) name)

/-- A reference is taken again: what is finished is answered from the memo, what is not is refused
again. -/
theorem repeats_reference (target : String) : Node.Repeats context (.reference target) := by
  intro hint nullable state answer state' final again hrun hgrows hlive hresumes
  have hnothing : ∀ name, ¬ Unlocks final (.reference target) hint name := by
    rintro name ⟨⟩
  have hfails : Exposed final (.reference target) hint →
      (Resolution.failed.succeeded = true ↔ ¬ Exposed final (.reference target) hint) :=
    fun hexposed => iff_of_false Bool.false_ne_true (not_not.2 hexposed)
  have hfinished : ∀ id resolution, componentName target = .ok (some id) →
      final.memo.find? id = some resolution →
      (Stage.atNode (.reference target) hint nullable).Repeats context again
        (fun answer => answer.succeeded = true) (Exposed final (.reference target) hint)
        (Unlocks final (.reference target) hint) := by
    intro id resolution hname hmemo
    have hagain : again.memo.find? id = some resolution := by rw [hresumes.memo, hmemo]
    refine .at_once (.finished hresumes.live hname hagain) rfl rfl ?_ hnothing
    have hexposed : Exposed final (.reference target) hint ↔ resolution.succeeded = false := by
      refine exposed_reference_iff.trans ⟨fun h => h id resolution hname hmemo, ?_⟩
      intro hfailed other found hother hfound
      rw [hname] at hother
      cases hother
      rw [hmemo] at hfound
      cases hfound
      exact hfailed
    rw [hexposed, Bool.not_eq_false]
  cases hrun with
  | cancelled hcancelled =>
    rw [hgrows.cancelled hcancelled] at hlive
    cases hlive
  | refused _ hname =>
    refine .at_once (.refused hresumes.live hname) rfl rfl (hfails (.reference ?_)) hnothing
    intro id resolution hother
    rw [hname] at hother
    cases hother
  | finished _ hname hmemo => exact hfinished _ _ hname (hgrows.memo _ _ hmemo)
  | busy _ _ _ hactive => cases hactive
  | @missing _ _ _ _ id error _ _ hname _ _ hfound =>
    cases hmemo : final.memo.find? id with
    | some resolution => exact hfinished _ _ hname hmemo
    | none =>
      have hagain : again.memo.find? id = none := by rw [hresumes.memo, hmemo]
      refine .at_once (.missing hresumes.live hname hagain List.not_mem_nil hfound) rfl rfl
        (hfails (.reference ?_)) hnothing
      intro other resolution hother hsome
      rw [hname] at hother
      cases hother
      rw [hmemo] at hsome
      cases hsome
  | entered _ hname _ _ _ hrun =>
    have hactive := hgrows.not_cancelled hlive
    rw [ResolverState.cancelled_memoise] at hactive
    refine hfinished _ answer hname (hgrows.memo _ _ ?_)
    rw [ResolverState.find?_memoise hactive, if_pos rfl]

/-- What is written in place is taken again if its schema is. -/
theorem repeats_inline {schema : Schema} (h : schema.Repeats context) :
    Node.Repeats context (.inline schema) := by
  intro hint nullable state answer state' final again hrun hgrows hlive hresumes
  cases hrun with
  | cancelled hcancelled =>
    rw [hgrows.cancelled hcancelled] at hlive
    cases hlive
  | inline _ hschema =>
    obtain ⟨answer', again', hagain, hrest⟩ :=
      h hint nullable state answer state' final again hschema hgrows hlive hresumes
    exact ⟨answer', again', .inline hresumes.live hagain, hrest⟩

/-- A schema that says nothing fails again. -/
theorem repeats_untyped {schema : Schema} (hshape : schema.composition? = none)
    (htypes : schema.types.isEmpty = true) : schema.Repeats context := by
  intro hint nullable state answer state' final again _ _ _ _
  have hexposed : Exposed final (.inline schema) hint := .untyped hshape htypes
  refine .at_once (.untyped hshape htypes) rfl rfl
    (iff_of_false Bool.false_ne_true (not_not.2 hexposed)) fun name hunlocks => ?_
  obtain ⟨harray, -⟩ := (unlocks_iff hshape).1 hunlocks
  simp only [TypeSet.isEmpty, List.isEmpty_iff, TypeSet.toList, List.filter_eq_nil_iff] at htypes
  exact htypes .array (by decide) harray

/-- The items of an array that was not registered are taken again, and the array is registered if
they do not fail. -/
theorem repeats_lostArray {schema : Schema} {node : Node} (hshape : schema.composition? = none)
    (htypes : schema.types.isEmpty = false) (hcalled : schema.types.contains .array = true)
    (hitems : schema.items = some (.each node)) {hint : ModelName} {final again : ResolverState}
    (hunknown : final.repository.contains hint = false)
    (hagain : again.repository.contains hint = false)
    (h : (Stage.atNode node (Naming.arrayItem hint) false).Repeats context again
      (fun answer => answer.succeeded = true) (Exposed final node (Naming.arrayItem hint))
      (Unlocks final node (Naming.arrayItem hint))) :
    (Stage.atArray schema hint).Repeats context again (· = true)
      (Exposed final (.inline schema) hint) (Unlocks final (.inline schema) hint) := by
  obtain ⟨answer, again', hrun, hmemo, hmeans⟩ := h
  have hexposed : Exposed final (.inline schema) hint ↔
      Exposed final node (Naming.arrayItem hint) := by
    rw [exposed_typed_iff hshape htypes]
    simp [hcalled, hunknown, hitems]
  have hunlocks : ∀ name, Unlocks final (.inline schema) hint name ↔
      (name = hint ∧ ¬ Exposed final node (Naming.arrayItem hint)) ∨
        Unlocks final node (Naming.arrayItem hint) name := by
    intro name
    rw [unlocks_iff hshape]
    simp [hcalled, hunknown, hitems]
  cases hsucceeded : answer.succeeded with
  | true =>
    refine ⟨true, _, .array hcalled hagain hitems hrun hsucceeded, hmemo, fun hend => ?_⟩
    obtain ⟨hsuccess, hregisters⟩ :=
      hmeans ((ResolverState.Grows.register _ _ _).not_cancelled hend)
    have hclear := hsuccess.1 hsucceeded
    refine ⟨iff_of_true rfl (hexposed.not.2 hclear), fun name => ?_⟩
    rw [ResolverState.repository_register, Repository.contains_register, hregisters, hunlocks]
    simp only [hclear, not_false_eq_true, and_true, Model.name]
    rw [or_assoc, or_comm (a := Unlocks _ _ _ _)]
  | false =>
    refine ⟨false, again', .lostArray hcalled hagain hitems hrun hsucceeded, hmemo,
      fun hend => ?_⟩
    obtain ⟨hsuccess, hregisters⟩ := hmeans hend
    have hfails : Exposed final node (Naming.arrayItem hint) := by
      by_contra hclear
      rw [hsuccess.2 hclear] at hsucceeded
      cases hsucceeded
    refine ⟨iff_of_false Bool.false_ne_true (not_not.2 (hexposed.2 hfails)), fun name => ?_⟩
    rw [hregisters, hunlocks]
    simp [hfails]

/-- The array of a schema is taken again: nothing is left to be done if it is registered. -/
theorem repeats_array {schema : Schema} (hshape : schema.composition? = none)
    (htypes : schema.types.isEmpty = false)
    (hitems : ∀ node, schema.items = some (.each node) → Node.Repeats context node)
    {hint : ModelName} {done : Bool} {state state' final again : ResolverState}
    (hrun : Runs context [] (.atArray schema hint) state done state') (hgrows : state'.Grows final)
    (hlive : final.cancelled = false) (hresumes : final.Resumes again (Naming.Extends hint)) :
    (Stage.atArray schema hint).Repeats context again (· = true)
      (Exposed final (.inline schema) hint) (Unlocks final (.inline schema) hint) := by
  cases hcalled : schema.types.contains .array with
  | false =>
    refine .at_once (.noArray hcalled) rfl rfl (iff_of_true rfl fun h => ?_) fun name h => ?_
    · cases hcalled.symm.trans ((exposed_typed_iff hshape htypes).1 h).1
    · cases hcalled.symm.trans ((unlocks_iff hshape).1 h).1
  | true =>
  cases hknown : final.repository.contains hint with
  | true =>
    refine .at_once (.knownArray hcalled (hresumes.kept hint hknown)) rfl rfl
      (iff_of_true rfl fun h => ?_) fun name h => ?_
    · cases hknown.symm.trans ((exposed_typed_iff hshape htypes).1 h).2.1
    · cases hknown.symm.trans ((unlocks_iff hshape).1 h).2.1
  | false =>
  have hagain : again.repository.contains hint = false := by
    refine Bool.eq_false_iff.2 fun hcontains => ?_
    rw [hresumes.fresh hint (.refl hint) hcontains] at hknown
    cases hknown
  -- without items to be walked, the array fails again
  have hfails : (∀ node, schema.items ≠ some (.each node)) →
      (false = true ↔ ¬ Exposed final (.inline schema) hint) ∧
        ∀ name, ¬ Unlocks final (.inline schema) hint name := by
    intro hnone
    refine ⟨iff_of_false Bool.false_ne_true (not_not.2 ?_), fun name h => ?_⟩
    · exact .array hshape hcalled hknown fun node hnode => absurd hnode (hnone node)
    · obtain ⟨-, -, node, hnode, -⟩ := (unlocks_iff hshape).1 h
      exact hnone node hnode
  cases hrun with
  | noArray hnone => cases hcalled.symm.trans hnone
  | knownArray _ hcontains => cases hknown.symm.trans (hgrows.contains hcontains)
  | array => cases hknown.symm.trans (hgrows.contains Repository.contains_register_self)
  | noItems _ _ hnone =>
    obtain ⟨hsuccess, hnothing⟩ := hfails fun node hnode => by simp [hnone] at hnode
    exact .at_once (.noItems hcalled hagain hnone) rfl rfl hsuccess hnothing
  | anyItems _ _ hany =>
    obtain ⟨hsuccess, hnothing⟩ := hfails fun node hnode => by simp [hany] at hnode
    exact .at_once (.anyItems hcalled hagain hany) rfl rfl hsuccess hnothing
  | lostArray _ _ hnode hnodeRun =>
    refine repeats_lostArray hshape htypes hcalled hnode hknown hagain ?_
    exact hitems _ hnode _ _ _ _ _ _ _ hnodeRun hgrows hlive
      (hresumes.mono fun name hname => (Naming.Extends.arrayItem hint).trans hname)

/-- A schema with types is taken again: its models and its object are there, and its array is taken
again. -/
theorem repeats_typed {schema : Schema} (hshape : schema.composition? = none)
    (htypes : schema.types.isEmpty = false)
    (hitems : ∀ node, schema.items = some (.each node) → Node.Repeats context node) :
    schema.Repeats context := by
  intro hint nullable state answer state' final again hrun hgrows hlive hresumes
  obtain ⟨objectDone, middle, arrayDone, hobject, harray, rfl⟩ := hrun.of_types hshape htypes
  have hmodels := registerAll_again (hobject.grows.trans (harray.grows.trans hgrows)) hresumes.kept
  have hobject' : Runs context [] (.atObject schema hint)
      (again.registerAll context.cancelAt (schema.flatModels hint nullable)) true again := by
    rw [hmodels]
    exact hobject.object_again (harray.grows.trans hgrows) hlive hresumes.kept
  obtain ⟨arrayDone', again', harray', hmemo, hmeans⟩ :=
    repeats_array hshape htypes hitems harray hgrows hlive hresumes
  refine ⟨_, again', .typed hshape htypes hobject' harray', hmemo, fun hend => ?_⟩
  simpa using hmeans hend

/-- A composition is taken again: its members are, and its model is there. -/
theorem repeats_composed {schema : Schema} {kind : CompositionKind} {members : List Node}
    (hshape : schema.composition? = some (kind, members))
    (hmembers : MembersRepeat context members) : schema.Repeats context := by
  intro hint nullable state answer state' final again hrun hgrows hlive hresumes
  obtain ⟨offered, answer', middle, hoffered, hwalk, hend⟩ := hrun.of_composition hshape
  rcases hend with ⟨rfl, -, rfl⟩ | ⟨result, rfl, -, rfl⟩
  · rw [hgrows.cancelled hwalk.cancelled_of_none] at hlive
    cases hlive
  have hregistered := hgrows.contains Repository.contains_register_self
  obtain ⟨answer', again', hrun', hmemo, hmeans⟩ :=
    hmembers _ _ _ _ _ _ _ _ again hwalk ((ResolverState.Grows.register _ _ _).trans hgrows) hlive
      (hresumes.mono fun name ⟨i, _, hname⟩ => (Naming.Extends.member hint i).trans hname) {}
  cases answer' with
  | none =>
    refine ⟨_, again', .abandoned hshape hoffered hrun', hmemo, fun hend => ?_⟩
    rw [hrun'.cancelled_of_none] at hend
    cases hend
  | some out =>
    have hknown : again'.repository.contains hint = true :=
      hrun'.grows.contains (hresumes.kept hint hregistered)
    have hcomposed : Runs context [] (.atSchema schema hint nullable) again _ _ :=
      .composed hshape hoffered hrun'
    rw [register_of_contained hknown] at hcomposed
    refine ⟨_, again', hcomposed, hmemo, fun hend => ?_⟩
    obtain ⟨hsuccess, hregisters⟩ := hmeans hend
    refine ⟨?_, fun name => ?_⟩
    · rw [exposed_composition_iff hshape]
      simpa [Resolution.single] using hsuccess
    · rw [unlocks_composition_iff hshape, hregisters]
      simp only [Nat.zero_add]

/-- In a cancelled extraction, members are given up or none is left. -/
theorem exists_run_of_cancelled (context : Context) {offered : Bool} {members : List Node}
    {hint : ModelName} {index : Nat} {result : MemberResult} {state : ResolverState}
    (hcancelled : state.cancelled = true) :
    ∃ answer, Runs context [] (.atMembers offered members hint index result) state answer
      state := by
  cases members with
  | nil => exact ⟨_, .allMembers⟩
  | cons member rest => exact ⟨_, .membersLeft hcancelled⟩

/-- Something is so of an entry of a list if it is so of the first or of one of the others, where
entries are counted from a given number on. -/
theorem exists_getElem?_cons {α : Type} (first : α) (rest : List α) (index : Nat)
    (p : α → Nat → Prop) :
    (∃ i a, (first :: rest)[i]? = some a ∧ p a (index + i)) ↔
      p first index ∨ ∃ i a, rest[i]? = some a ∧ p a (index + 1 + i) := by
  have hnext : ∀ i, index + (i + 1) = index + 1 + i := fun i => by omega
  constructor
  · rintro ⟨i, a, hentry, h⟩
    cases i with
    | zero =>
      cases hentry
      exact .inl h
    | succ i => exact .inr ⟨i, a, hentry, hnext i ▸ h⟩
  · rintro (h | ⟨i, a, hentry, h⟩)
    · exact ⟨0, first, rfl, h⟩
    · exact ⟨i + 1, a, hentry, (hnext i).symm ▸ h⟩

/-- Members are taken again one after the other. What the first of them registers is not in the way
of the others, since parts of different members have different names. -/
theorem repeats_nextMember {member : Node} {rest : List Node} (hfirst : Node.Repeats context member)
    (hrest : MembersRepeat context rest) : MembersRepeat context (member :: rest) := by
  intro offered hint index result state answer state' final again hrun hgrows hlive hresumes result'
  cases hrun with
  | membersLeft hcancelled =>
    rw [hgrows.cancelled hcancelled] at hlive
    cases hlive
  | nextMember _ hrunFirst hrunRest =>
    have hfree : ∀ name, Naming.Extends (Naming.member hint index) name →
        ∃ i ≥ index, Naming.Extends (Naming.member hint i) name :=
      fun name hname => ⟨index, Nat.le_refl index, hname⟩
    obtain ⟨resolution, middle, hagain, hmemo, hmeans⟩ :=
      hfirst _ _ _ _ _ _ again hrunFirst (hrunRest.grows.trans hgrows) hlive (hresumes.mono hfree)
    cases hcancelled : middle.cancelled with
    | true =>
      obtain ⟨answer', hlast⟩ := exists_run_of_cancelled context hcancelled
      refine ⟨answer', middle, .nextMember hresumes.live hagain hlast, hmemo, fun hend => ?_⟩
      rw [hcancelled] at hend
      cases hend
    | false =>
    obtain ⟨hsuccess, hregisters⟩ := hmeans hcancelled
    have hresumes' : final.Resumes middle
        fun name => ∃ i ≥ index + 1, Naming.Extends (Naming.member hint i) name := by
      refine ⟨hcancelled, hmemo.trans hresumes.memo,
        fun name hname => hagain.grows.contains (hresumes.kept name hname), ?_⟩
      rintro name ⟨i, hi, hname⟩ hcontains
      rcases (hregisters name).1 hcontains with hold | hunlocked
      · exact hresumes.fresh name ⟨i, by omega, hname⟩ hold
      · have hsame := hname.member_unique hunlocked.extends
        omega
    obtain ⟨answer', again', hlast, hmemo', hmeans'⟩ :=
      hrest _ _ _ _ _ _ _ _ middle hrunRest hgrows hlive hresumes' (result'.add resolution)
    refine ⟨answer', again', .nextMember hresumes.live hagain hlast, hmemo'.trans hmemo,
      fun hend => ?_⟩
    obtain ⟨hsuccess', hregisters'⟩ := hmeans' hend
    have hexposed := exists_getElem?_cons member rest index
      fun m i => Exposed final m (Naming.member hint i)
    refine ⟨?_, fun name => ?_⟩
    · have hfailed : resolution.succeeded = false ↔
          Exposed final member (Naming.member hint index) := by
        rw [← Bool.not_eq_true]
        exact (not_congr hsuccess).trans not_not
      rw [hsuccess', MemberResult.succeeded_add, Bool.and_eq_false_iff, hfailed, or_assoc]
      exact not_congr (or_congr_right hexposed.symm)
    · have hunlocks := exists_getElem?_cons member rest index
        fun m i => Unlocks final m (Naming.member hint i) name
      rw [hregisters', hregisters, or_assoc]
      exact or_congr_right hunlocks.symm

/-- No member is left to be taken again. -/
theorem repeats_noMembers : MembersRepeat context [] := by
  intro offered hint index result state answer state' final again _ _ _ _ result'
  refine .at_once .allMembers rfl rfl ?_ fun name h => ?_
  · constructor
    · rintro ⟨out, hout, hsucceeded⟩ (hfailed | ⟨i, member, hmember, -⟩)
      · cases hout
        cases hsucceeded.symm.trans hfailed
      · cases hmember
    · intro h
      exact ⟨result', rfl, Bool.not_eq_false _ ▸ fun hfailed => h (.inl hfailed)⟩
  · obtain ⟨i, member, hmember, -⟩ := h
    cases hmember

/-- **What becomes of a node that is resolved again**: it fails if it is exposed, and registers what
it unlocks.

**Proof sketch.** Induction on the parts of schemas. Properties are not walked again, since their
object is registered, and the components behind references are finished. -/
theorem repeats_node (context : Context) (node : Node) : Node.Repeats context node :=
  (Schema.induction (Node.Repeats context) (Schema.Repeats context) (MembersRepeat context)
    (fun _ => True) (fun items => ∀ node, items = some (.each node) → Node.Repeats context node)
    repeats_reference (fun _ => repeats_inline) (fun _ _ _ => repeats_composed)
    (fun _ => repeats_untyped) (fun _ hshape htypes _ => repeats_typed hshape htypes)
    repeats_noMembers (fun _ _ => repeats_nextMember) trivial (fun _ _ _ _ _ => trivial)
    (fun _ h => nomatch h) (fun _ _ h => nomatch h)
    (fun node hnode other hother => by cases hother; exact hnode)).1 node

/-! ## Twice in a row -/

/-- What a schema refers to is read off it. -/
theorem Runs.references_eq {schema : Schema} {hint : ModelName} {nullable : Bool}
    {active active' : List ModelName} {resolution resolution' : Resolution}
    {state₁ state₂ state₃ state₄ : ResolverState}
    (h : Runs context active (.atSchema schema hint nullable) state₁ resolution state₂)
    (h' : Runs context active' (.atSchema schema hint nullable) state₃ resolution' state₄) :
    resolution'.references = resolution.references := by
  cases hshape : schema.composition? with
  | some composition =>
    obtain ⟨kind, members⟩ := composition
    have hsingle : ∀ {active : List ModelName} {answer : Resolution} {before after : ResolverState},
        Runs context active (.atSchema schema hint nullable) before answer after →
          answer.references = [hint] := by
      intro active answer before after hrun
      obtain ⟨_, _, _, -, -, ⟨-, rfl, -⟩ | ⟨_, -, rfl, -⟩⟩ := hrun.of_composition hshape <;> rfl
    rw [hsingle h, hsingle h']
  | none =>
    cases htypes : schema.types.isEmpty with
    | true => rw [(h.of_untyped hshape htypes).1, (h'.of_untyped hshape htypes).1]
    | false =>
      obtain ⟨_, _, _, -, -, rfl⟩ := h.of_types hshape htypes
      obtain ⟨_, _, _, -, -, rfl⟩ := h'.of_types hshape htypes
      rfl

/-- A reference that is resolved again is answered the same: by now its component is finished, or
is refused again. -/
theorem Runs.reference_again {target : String} {hint : ModelName} {nullable : Bool}
    {resolution : Resolution} {state state' : ResolverState}
    (h : Runs context [] (.atNode (.reference target) hint nullable) state resolution state')
    (hlive : state'.cancelled = false) :
    ∃ final,
      Runs context [] (.atNode (.reference target) hint nullable) state' resolution final := by
  cases h with
  | cancelled hcancelled => cases hcancelled.symm.trans hlive
  | refused _ hname => exact ⟨_, .refused hlive hname⟩
  | finished _ hname hmemo => exact ⟨_, .finished hlive hname hmemo⟩
  | busy _ _ _ hactive => cases hactive
  | missing _ hname hmemo hnew hfound => exact ⟨_, .missing hlive hname hmemo hnew hfound⟩
  | entered _ hname =>
    have hactive := hlive
    rw [ResolverState.cancelled_memoise] at hactive
    refine ⟨_, .finished hlive hname ?_⟩
    rw [ResolverState.find?_memoise hactive, if_pos rfl]

/-- A node that is resolved again refers to the same. -/
theorem Runs.references_again {node : Node} {hint : ModelName} {nullable : Bool}
    {resolution resolution' : Resolution} {state state' final : ResolverState}
    (h : Runs context [] (.atNode node hint nullable) state resolution state')
    (h' : Runs context [] (.atNode node hint nullable) state' resolution' final)
    (hlive : state'.cancelled = false) : resolution'.references = resolution.references := by
  cases node with
  | reference target =>
    obtain ⟨final', hagain⟩ := h.reference_again hlive
    rw [(h'.unique hagain).1]
  | inline schema =>
    cases h with
    | cancelled hcancelled => cases hcancelled.symm.trans hlive
    | inline _ hschema =>
      cases h' with
      | cancelled hcancelled => cases hcancelled.symm.trans hlive
      | inline _ hschema' => exact hschema.references_eq hschema'

/-- A repository is given by its models. -/
theorem Repository.eq_of_models {repository repository' : Repository}
    (h : repository.models = repository'.models) : repository = repository' := by
  cases repository
  cases repository'
  cases h
  rfl

/-- A repository in which no name is new is the one before. -/
theorem ResolverState.Grows.repository_eq {state state' : ResolverState} (h : state.Grows state')
    (hnone : ∀ name, state'.repository.contains name = true →
      state.repository.contains name = true) : state'.repository = state.repository := by
  obtain ⟨new, hnew⟩ := h.models
  have hempty : new = [] := by
    refine List.eq_nil_iff_forall_not_mem.2 fun model hmodel => ?_
    have hnodup := state'.repository.nodup_names
    rw [← hnew, List.map_append, List.nodup_append] at hnodup
    have hname : model.name ∈ new.map Model.name := List.mem_map_of_mem hmodel
    refine hnodup.2.2 _ ?_ _ hname rfl
    refine Repository.contains_iff.1 (hnone model.name (Repository.contains_iff.2 ?_))
    rw [Repository.names, ← hnew, List.map_append]
    exact List.mem_append_right _ hname
  rw [hempty, List.append_nil] at hnew
  exact (Repository.eq_of_models hnew).symm

/-- **A node that is resolved twice in a row**: the second time it refers to the same. If it
succeeded, nothing changes. If not, it succeeds the second time unless it is exposed, and what is
registered the second time is what it unlocks; so the two times are alike, with no model added by
the second, just if the node succeeded or is exposed, and unlocks nothing. -/
theorem resolve_again {node : Node} {hint : ModelName} {state state' : ResolverState}
    {resolution : Resolution} (h : resolve context node hint state = .ok resolution state')
    (hlive : state'.cancelled = false) :
    ∃ resolution' final, resolve context node hint state' = .ok resolution' final ∧
      (resolution.succeeded = true → resolution' = resolution ∧ final = state') ∧
      (final.cancelled = false →
        resolution'.references = resolution.references ∧
        (resolution'.succeeded = true ↔ ¬ Exposed state' node hint) ∧
        (∀ name, final.repository.contains name = true ↔
          state'.repository.contains name = true ∨ Unlocks state' node hint name) ∧
        ((resolution' = resolution ∧ final.repository = state'.repository) ↔
          (resolution.succeeded = true ∨ Exposed state' node hint) ∧
            ∀ name, ¬ Unlocks state' node hint name)) := by
  have hrun := runs_of_ok h
  obtain ⟨resolution', final, hagain, hmemo, hmeans⟩ :=
    repeats_node context node hint false state resolution state' state' state' hrun (.refl _) hlive
      ⟨hlive, rfl, fun _ h => h, fun _ _ h => h⟩
  have hreferences := hrun.references_again hagain hlive
  have halone : resolution.succeeded = true → resolution' = resolution ∧ final = state' :=
    fun hsucceeded => hagain.unique
      (leftAlone_node context node hint false state resolution state' state' hrun (.refl _) hlive
        hsucceeded)
  refine ⟨resolution', final, hagain.step_eq_ok, halone, fun hend => ?_⟩
  obtain ⟨hsuccess, hregisters⟩ := hmeans hend
  refine ⟨hreferences, hsuccess, hregisters, ?_⟩
  have hmodels : final.repository = state'.repository ↔
      ∀ name, ¬ Unlocks state' node hint name := by
    constructor
    · intro heq name hunlocks
      have hcontains := (hregisters name).2 (.inr hunlocks)
      rw [heq, hunlocks.free] at hcontains
      cases hcontains
    · intro hnone
      exact hagain.grows.repository_eq fun name hname =>
        ((hregisters name).1 hname).resolve_right (hnone name)
  rw [hmodels]
  refine and_congr_left fun _ => ?_
  constructor
  · rintro rfl
    exact or_iff_not_imp_right.2 hsuccess.2
  · rintro (hsucceeded | hexposed)
    · exact (halone hsucceeded).1
    · cases hsucceeded : resolution.succeeded with
      | true => exact (halone hsucceeded).1
      | false =>
        have hfailed : resolution'.succeeded = false :=
          Bool.eq_false_iff.2 fun h => hsuccess.1 h hexposed
        cases resolution
        cases resolution'
        cases hreferences
        cases hfailed.trans hsucceeded.symm
        rfl

end Repetition

/-- An object with a property that is an array without items. -/
def lostTags : Node :=
  .inline
    { types := .ofList [.object], properties := [("tags", .inline { types := .ofList [.array] })] }

/-- An array of such objects. -/
def lostTagLists : Node :=
  .inline { types := .ofList [.array], items := some (.each lostTags) }

/-- A resolver that has resolved the array once. -/
def lostTagListsOnce : ResolverState :=
  (({} : ResolverState).record (.missingArrayItems "H[].tags")).register none (.object "H[]" ∅)

/-- The object does not fail again once it is registered, so its failure unlocks the array, which is
registered when it is resolved again. -/
theorem unlocks_lostTagLists :
    resolve ⟨.ofSchemas [], none⟩ lostTagLists "H" {} = .ok ⟨["H"], false⟩ lostTagListsOnce ∧
    ∃ twice,
      resolve ⟨.ofSchemas [], none⟩ lostTagLists "H" lostTagListsOnce = .ok ⟨["H"], true⟩ twice ∧
      twice.repository.contains "H" = true ∧ lostTagListsOnce.repository.contains "H" = false := by
  have honce : resolve ⟨.ofSchemas [], none⟩ lostTagLists "H" {} =
      .ok ⟨["H"], false⟩ lostTagListsOnce := rfl
  have hobject : ¬ Exposed lostTagListsOnce lostTags "H[]" := fun h => by
    cases ((exposed_typed_iff rfl rfl).1 h).1
  have harray : Unlocks lostTagListsOnce lostTagLists "H" "H" := .array rfl rfl rfl rfl hobject
  have hclear : ¬ Exposed lostTagListsOnce lostTagLists "H" := fun h =>
    hobject (((exposed_typed_iff rfl rfl).1 h).2.2 lostTags rfl)
  obtain ⟨again, twice, hagain, -, hmeans⟩ := resolve_again honce rfl
  have hlive : twice.cancelled = false := by
    cases hagain
    rfl
  obtain ⟨hreferences, hsucceeds, hregisters, -⟩ := hmeans hlive
  obtain ⟨references, succeeded⟩ := again
  cases hreferences
  cases hsucceeds.2 hclear
  exact ⟨honce, twice, hagain, (hregisters "H").2 (.inr harray), rfl⟩

/-- **A failure is forgotten**: an object that failed succeeds when it is resolved again, and an
array of such objects is registered only then. -/
theorem forgotten_lostTags :
    (∃ once, resolve ⟨.ofSchemas [], none⟩ lostTags "Item" {} = .ok ⟨["Item"], false⟩ once ∧
      resolve ⟨.ofSchemas [], none⟩ lostTags "Item" once = .ok ⟨["Item"], true⟩ once) ∧
    ∃ once twice,
      resolve ⟨.ofSchemas [], none⟩ lostTagLists "H" {} = .ok ⟨["H"], false⟩ once ∧
      resolve ⟨.ofSchemas [], none⟩ lostTagLists "H" once = .ok ⟨["H"], true⟩ twice ∧
      once.repository.names = ["H[]"] ∧ twice.repository.names = ["H[]", "H"] :=
  ⟨⟨_, rfl, rfl⟩, _, _, rfl, rfl, rfl, rfl⟩

end ApiCatalog
