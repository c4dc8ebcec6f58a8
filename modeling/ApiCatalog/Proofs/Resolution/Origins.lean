import ApiCatalog.Proofs.Resolution.Denotations
import ApiCatalog.Proofs.Resolution.Encounters
import ApiCatalog.Proofs.Resolution.Sessions

set_option autoImplicit false

/-!
# Where resolutions come from

What a schema is resolved to says under which name it was resolved, unless the schema is a flat one,
which calls for common primitives and nothing else. So an entry of the memo is a failure without
references, or goes back to the id of a finished component under which the schema was resolved.

## Main definitions

* `Schema.IsFlat`: a schema that calls for common primitives only.
* `Resolution.ComesOf`: a resolution is what a schema was resolved to under some id.
* `Document.Provenance`: each entry of the memo comes of the schema that its component stands for.

## Main results

* `Schema.isFlat_of_denoted_eq`: only flat schemas denote the same under different names.
* `Runs.memo_cases`: an entry of the memo is an old one, or that of a component that was entered.
* `ApiCatalog.provenance_of_session`: the memo in a session that resolves the document's components.
-/

namespace ApiCatalog

/-! ## Flat schemas -/

/-- A schema that calls for common primitives only: it has types, none of them object or array, and
neither a combinator nor an enumeration. -/
structure Schema.IsFlat (schema : Schema) : Prop where
  composition : schema.composition? = none
  typed : schema.types.isEmpty = false
  noObject : schema.types.contains .object = false
  noArray : schema.types.contains .array = false
  noEnumeration : (schema.types.contains .string && !schema.literals.isEmpty) = false

namespace Schema.IsFlat

variable {schema : Schema} (h : schema.IsFlat) (hint : ModelName)

include h

/-- A flat schema calls for no enumeration. -/
theorem enumerations_eq : schema.enumerations hint = [] := by
  rw [enumerations, if_neg (by simp [h.noEnumeration])]

/-- A flat schema calls for the same models under every hint. -/
theorem flatModels_eq :
    schema.flatModels hint false = schema.types.primitives.map .primitive := by
  rw [flatModels, h.enumerations_eq, List.append_nil]
  rfl

/-- A flat schema refers to its primitives. -/
theorem references_eq :
    schema.references hint false = schema.types.primitives.map PrimitiveKind.canonicalName := by
  have hobject : (schema.typesIn false).contains .object = false := h.noObject
  have harray : (schema.typesIn false).contains .array = false := h.noArray
  rw [references, typeReferences, h.enumerations_eq, hobject, harray]
  simp [typesIn]

/-- A flat schema denotes its primitives. -/
theorem denoted_eq :
    schema.denoted hint false = schema.types.primitives.map PrimitiveKind.canonicalName := by
  rw [denoted, if_neg (by simp [h.composition]), h.references_eq]

end Schema.IsFlat

/-- The enumerations of different hints have different names. -/
theorem Naming.enumeration_injective {a b : ModelName} {nullable : Bool}
    (h : Naming.enumeration a nullable = Naming.enumeration b nullable) : a = b := by
  unfold Naming.enumeration at h
  split at h
  · rw [← String.toList_inj, String.toList_append, String.toList_append] at h
    exact String.toList_inj.1 (List.append_cancel_right h)
  · exact h

/-- **Only flat schemas denote the same under different names.** -/
theorem Schema.isFlat_of_denoted_eq {schema : Schema} {a b : ModelName}
    (h : schema.denoted a false = schema.denoted b false) (hsaid : schema.denoted a false ≠ [])
    (hne : a ≠ b) : schema.IsFlat := by
  cases hshape : schema.composition? with
  | some composition =>
    simp only [denoted, hshape, Option.isSome_some, if_true, List.cons.injEq, and_true] at h
    exact absurd h hne
  | none =>
    simp only [denoted, hshape, Option.isSome_none, Bool.false_eq_true, if_false, references,
      typeReferences, List.append_assoc, List.append_cancel_left_eq] at h
    -- the parts after the primitives begin with the name under which they are resolved
    have hliterals : (schema.types.contains .string && !schema.literals.isEmpty) = false := by
      refine Bool.eq_false_iff.2 fun hliterals => hne ?_
      simp only [enumerations, hliterals, if_true, List.map_cons, List.cons_append,
        List.cons.injEq] at h
      exact Naming.enumeration_injective h.1
    have hnone : ∀ hint, schema.enumerations hint = [] := by
      intro hint
      rw [enumerations, if_neg (by simp [hliterals])]
    simp only [hnone, List.map_nil, List.nil_append] at h
    have hobject : schema.types.contains .object = false := by
      refine Bool.eq_false_iff.2 fun hobject => hne ?_
      simp only [typesIn, Bool.false_eq_true, if_false, hobject, if_true, List.cons_append,
        List.cons.injEq] at h
      exact h.1
    have harray : schema.types.contains .array = false := by
      refine Bool.eq_false_iff.2 fun harray => hne ?_
      simpa [typesIn, hobject, harray] using h
    refine ⟨hshape, Bool.eq_false_iff.2 fun hempty => hsaid ?_, hobject, harray, hliterals⟩
    have hcontains : ∀ type, schema.types.contains type = false := by
      intro type
      refine Bool.eq_false_iff.2 fun htype => ?_
      simp only [TypeSet.isEmpty, List.isEmpty_iff, TypeSet.toList,
        List.filter_eq_nil_iff] at hempty
      exact hempty type (by cases type <;> decide) htype
    simp [denoted, hshape, references, typeReferences, hnone, typesIn, hcontains,
      TypeSet.primitives]

/-! ## What schemas are resolved to -/

section Runs

variable {context : Context} {active : List ModelName} {schema : Schema} {hint : ModelName}
  {nullable : Bool} {state state' : ResolverState} {resolution : Resolution}

/-- A schema that says nothing fails and is reported; any other is answered with what it denotes,
even if it fails. -/
theorem Runs.answer_cases
    (h : Runs context active (.atSchema schema hint nullable) state resolution state') :
    (resolution = .failed ∧ state' = state.record (.missingType hint)) ∨
      (resolution.references = schema.denoted hint nullable ∧ resolution.references ≠ []) := by
  cases h with
  | composed hshape | abandoned hshape =>
    exact .inr ⟨by simp [Schema.denoted, hshape, Resolution.single], List.cons_ne_nil _ _⟩
  | untyped => exact .inl ⟨rfl, rfl⟩
  | typed hshape htypes =>
    exact .inr ⟨by simp [Schema.denoted, hshape], Schema.references_ne_nil htypes _ _⟩

/-- A flat schema is resolved by the registration of its primitives. -/
theorem runs_of_isFlat (context : Context) (active : List ModelName) (hflat : schema.IsFlat)
    (hint : ModelName) (state : ResolverState) :
    Runs context active (.atSchema schema hint false) state
      ⟨schema.types.primitives.map PrimitiveKind.canonicalName, true⟩
      (state.registerAll context.cancelAt (schema.types.primitives.map .primitive)) := by
  have hrun : Runs context active (.atSchema schema hint false) state
      ⟨schema.references hint false, true && true⟩
      (state.registerAll context.cancelAt (schema.flatModels hint false)) :=
    .typed hflat.composition hflat.typed (.noObject hflat.noObject) (.noArray hflat.noArray)
  rwa [hflat.references_eq, hflat.flatModels_eq] at hrun

/-- The references of a flat schema are registered when it is resolved. -/
theorem Runs.registered_of_isFlat
    (h : Runs context active (.atSchema schema hint false) state resolution state')
    (hflat : schema.IsFlat) {name : ModelName} (hname : name ∈ resolution.references) :
    state'.repository.contains name = true := by
  obtain ⟨rfl, rfl⟩ := h.unique (runs_of_isFlat context active hflat hint state)
  obtain ⟨kind, hkind, rfl⟩ := List.mem_map.1 hname
  have hmodel : Model.primitive kind ∈ schema.types.primitives.map Model.primitive :=
    List.mem_map.2 ⟨kind, hkind, rfl⟩
  exact contains_registerAll hmodel

end Runs

/-! ## The entries of the memo -/

/-- **An entry of the memo is an old one, or that of a component that was entered**: what its schema
was resolved to under its own id.

**Proof sketch.** Induction on the run. Only the rule that enters a component adds to the memo. -/
theorem Runs.memo_cases {context : Context} {kind : StageKind} {active : List ModelName}
    {stage : Stage kind} {state state' : ResolverState} {answer : kind.Answer}
    (h : Runs context active stage state answer state') {id : ModelName} {resolution : Resolution}
    (hfind : state'.memo.find? id = some resolution) :
    state.memo.find? id = some resolution ∨
      ∃ around target schema before after, componentName target = .ok (some id) ∧
        context.document.findSchema target = .ok (.ok schema) ∧
        Runs context around (.atSchema schema id false) before resolution after ∧
        after.Grows state' := by
  induction h with
  | cancelled | finished | busy | allMembers | membersLeft | allProperties | noObject | knownObject
  | noArray | knownArray | refused | missing | untyped | noItems | anyItems => exact .inl hfind
  | inline _ _ ih | abandoned _ _ _ ih | lostObject _ _ _ _ ih | lostArray _ _ _ _ _ ih =>
    exact ih hfind
  | composed _ _ _ ih | object _ _ _ _ ih | array _ _ _ _ _ ih =>
    refine (ih hfind).imp_right ?_
    rintro ⟨around, target, schema, before, after, hname, hfound, hrun, hgrows⟩
    exact ⟨around, target, schema, before, after, hname, hfound, hrun,
      hgrows.trans (.register _ _ _)⟩
  | @entered active target hint nullable entered schema state found state' _ hname hmemo _ hfound
    hrun ih =>
    have hgrows : state'.Grows (state'.memoise entered found) :=
      (ResolverState.Grows.refl state').memoise (hrun.memo_active List.mem_cons_self hmemo)
    rcases ResolverState.find?_memoise_cases hfind with hold | ⟨rfl, rfl⟩
    · refine (ih hold).imp_right ?_
      rintro ⟨around, target, schema, before, after, hname, hfound, hrun, hafter⟩
      exact ⟨around, target, schema, before, after, hname, hfound, hrun, hafter.trans hgrows⟩
    · exact .inr ⟨_, target, schema, state, state', hname, hfound, hrun, hgrows⟩
  | typed _ _ _ harray ihObject ihArray =>
    rcases ihArray hfind with hmiddle | hentered
    · rcases ihObject hmiddle with hold | hentered
      · rw [ResolverState.memo_registerAll] at hold
        exact .inl hold
      · obtain ⟨around, target, schema, before, after, hname, hfound, hrun, hgrows⟩ := hentered
        exact .inr ⟨around, target, schema, before, after, hname, hfound, hrun,
          hgrows.trans harray.grows⟩
    · exact .inr hentered
  | nextMember _ _ hrest ihFirst ihRest | nextProperty _ hrest ihFirst ihRest =>
    rcases ihRest hfind with hmiddle | hentered
    · refine (ihFirst hmiddle).imp_right ?_
      rintro ⟨around, target, schema, before, after, hname, hfound, hrun, hgrows⟩
      exact ⟨around, target, schema, before, after, hname, hfound, hrun, hgrows.trans hrest.grows⟩
    · exact .inr hentered

/-- A resolution is what a schema was resolved to under the id of a finished component, or the
failure without references. If the schema is flat, its references are registered. -/
structure Resolution.ComesOf (resolution : Resolution) (schema : Schema) (state : ResolverState) :
    Prop where
  origin : resolution = .failed ∨
    ∃ id, state.memo.contains id = true ∧ resolution.references = schema.denoted id false
  registered : schema.IsFlat → ∀ name ∈ resolution.references,
    state.repository.contains name = true

namespace Resolution.ComesOf

variable {resolution : Resolution} {schema : Schema} {state state' : ResolverState}

/-- The failure without references may come of any schema. -/
theorem failed (schema : Schema) (state : ResolverState) : Resolution.failed.ComesOf schema state :=
  ⟨.inl rfl, fun _ _ hname => absurd hname List.not_mem_nil⟩

/-- What a resolution comes of is the same later. -/
theorem mono (h : resolution.ComesOf schema state) (hgrows : state.Grows state') :
    resolution.ComesOf schema state' := by
  refine ⟨h.origin.imp_right ?_, fun hflat name hname =>
    hgrows.contains (h.registered hflat name hname)⟩
  rintro ⟨id, hmemo, hreferences⟩
  obtain ⟨found, hfound⟩ := Option.isSome_iff_exists.1 hmemo
  refine ⟨id, ?_, hreferences⟩
  rw [OrderedMap.contains, hgrows.memo id found hfound]
  rfl

/-- What a schema is resolved to under the id of a component comes of it when the component is
finished. -/
theorem of_runs {context : Context} {active : List ModelName} {id : ModelName}
    {after : ResolverState}
    (h : Runs context active (.atSchema schema id false) state resolution after)
    (hgrows : after.Grows state') (hmemo : state'.memo.contains id = true) :
    resolution.ComesOf schema state' := by
  refine ⟨?_, fun hflat name hname => hgrows.contains (h.registered_of_isFlat hflat hname)⟩
  rcases h.answer_cases with ⟨hfailed, -⟩ | ⟨hreferences, -⟩
  · exact .inl hfailed
  · exact .inr ⟨id, hmemo, hreferences⟩

/-- A resolution of a flat schema that succeeded refers to the primitives. -/
theorem eq_of_isFlat (h : resolution.ComesOf schema state) (hflat : schema.IsFlat)
    (hsucceeded : resolution.succeeded = true) :
    resolution = ⟨schema.types.primitives.map PrimitiveKind.canonicalName, true⟩ := by
  rcases h.origin with rfl | ⟨id, -, hreferences⟩
  · cases hsucceeded
  · rw [hflat.denoted_eq] at hreferences
    exact congrArg₂ Resolution.mk hreferences hsucceeded

end Resolution.ComesOf

/-- Each entry of the memo comes of the schema that its component stands for. -/
def Document.Provenance (document : Document) (state : ResolverState) : Prop :=
  ∀ id resolution schema, state.memo.find? id = some resolution → document.StandsFor id schema →
    resolution.ComesOf schema state

section Provenance

variable {context : Context} {state state' : ResolverState}

/-- A run keeps the provenance of the memo. -/
theorem Runs.provenance {kind : StageKind} {active : List ModelName} {stage : Stage kind}
    {answer : kind.Answer} (h : Runs context active stage state answer state')
    (hbefore : context.document.Provenance state) : context.document.Provenance state' := by
  intro id resolution schema hfind hstands
  rcases h.memo_cases hfind with hold | ⟨around, target, found, before, after, hname, hfound, hrun,
    hgrows⟩
  · exact (hbefore id resolution schema hold hstands).mono h.grows
  · rw [hstands.unique (standsFor_of_findSchema hname hfound)]
    refine .of_runs hrun hgrows ?_
    rw [OrderedMap.contains, hfind]
    rfl

/-- A component that is an alias of itself stands for nothing. -/
theorem Document.not_standsFor_of_self {document : Document} {id next : String} {schema : Schema}
    (hfind : document.schemas.find? id = some (.reference next))
    (hself : targetName? next = some id) : ¬ document.StandsFor id schema := by
  intro hstands
  induction hstands with
  | inPlace hfind' =>
    rw [hfind] at hfind'
    cases hfind'
  | viaAlias hfind' hnext' hother ih =>
    rw [hfind] at hfind'
    cases hfind'
    rw [hself] at hnext'
    cases hnext'
    exact ih hfind hself

/-- What an alias is resolved to by itself comes of the schema that it stands for. -/
theorem Runs.comesOf_of_alias {id target : String} {schema : Schema} {resolution : Resolution}
    (h : Runs context [id] (.atNode (.reference target) id false) state resolution state')
    (hend : state'.cancelled = false) (hbefore : context.document.Provenance state)
    (hfind : context.document.schemas.find? id = some (.reference target))
    (hstands : context.document.StandsFor id schema) : resolution.ComesOf schema state' := by
  have hother : ∀ other, componentName target = .ok (some other) →
      context.document.StandsFor other schema := by
    intro other hname
    cases hstands with
    | inPlace hfind' =>
      rw [hfind] at hfind'
      cases hfind'
    | viaAlias hfind' hnext' hother =>
      rw [hfind] at hfind'
      cases hfind'
      rw [targetName?_of_componentName hname] at hnext'
      cases hnext'
      exact hother
  cases h with
  | cancelled | refused | missing => exact .failed _ _
  | finished _ hname hmemo => exact hbefore _ _ _ hmemo (hother _ hname)
  | busy _ hname _ hactive =>
    obtain rfl := List.mem_singleton.1 hactive
    exact absurd hstands
      (Document.not_standsFor_of_self hfind (targetName?_of_componentName hname))
  | @entered _ _ _ _ other found _ _ after _ hname hmemo _ hfound hrun =>
    rw [ResolverState.cancelled_memoise] at hend
    rw [(hother other hname).unique (standsFor_of_findSchema hname hfound)]
    refine .of_runs hrun ((ResolverState.Grows.refl after).memoise
      (hrun.memo_active List.mem_cons_self hmemo)) ?_
    rw [OrderedMap.contains, ResolverState.find?_memoise hend, if_pos rfl]
    rfl

/-- A component that is resolved by itself keeps the provenance of the memo. -/
theorem provenance_of_resolveComponent {id : String} {node : Node} {answer : Option Resolution}
    (h : resolveComponent context id node state = .ok answer state')
    (hfind : context.document.schemas.find? id = some node)
    (hbefore : context.document.Provenance state) : context.document.Provenance state' := by
  rcases resolveComponent_ok h with ⟨-, -, rfl⟩ | ⟨resolution, after, -, hmemo, -, hrun, rfl⟩
  · exact hbefore
  have hafter := hrun.provenance hbefore
  cases hend : after.cancelled with
  | true =>
    rw [ResolverState.memoise, if_pos hend]
    exact hafter
  | false =>
    have hnone : state.memo.find? id = none := by simpa [OrderedMap.contains] using hmemo
    have hgrows : after.Grows (after.memoise id resolution) :=
      (ResolverState.Grows.refl after).memoise (hrun.memo_active List.mem_cons_self hnone)
    intro other found schema hfound hstands
    rcases ResolverState.find?_memoise_cases hfound with hold | ⟨rfl, rfl⟩
    · exact (hafter other found schema hold hstands).mono hgrows
    · cases node with
      | reference target => exact (hrun.comesOf_of_alias hend hbefore hfind hstands).mono hgrows
      | inline own =>
        rw [hstands.unique (.inPlace hfind)]
        cases hrun with
        | cancelled => exact .failed _ _
        | inline _ hschema =>
          refine .of_runs hschema hgrows ?_
          rw [OrderedMap.contains, hfound]
          rfl

/-- A request that gives a component its node in the document, if it is one to resolve a
component. -/
def Request.FromDocument (document : Document) : Request → Prop
  | .schema _ _ => True
  | .component id node => document.schemas.find? id = some node
  | .record _ => True

/-- **The memo in a session that resolves the document's components**: each entry comes of the
schema that its component stands for. -/
theorem provenance_of_session {turns : List Turn} (h : Session context turns state)
    (hdocument : ∀ turn ∈ turns, turn.request.FromDocument context.document) :
    context.document.Provenance state := by
  induction h with
  | start => exact fun _ _ _ hmemo => nomatch hmemo
  | @next turns state state' request answer _ hperform ih =>
    have hbefore := ih fun turn hturn => hdocument turn (List.mem_cons_of_mem _ hturn)
    have hrequest := hdocument _ List.mem_cons_self
    cases request with
    | schema node hint =>
      obtain ⟨resolution, s, hresolve, hanswer⟩ := Resolver.bind_eq_ok_iff.1 hperform
      cases hanswer
      exact (runs_of_ok hresolve).provenance hbefore
    | component id node => exact provenance_of_resolveComponent hperform hrequest hbefore
    | record diagnostic =>
      cases hperform
      exact fun id resolution schema hmemo hstands =>
        (hbefore id resolution schema hmemo hstands).mono (.record _ _)

end Provenance

end ApiCatalog
