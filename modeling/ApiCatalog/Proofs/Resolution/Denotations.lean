import ApiCatalog.Proofs.Resolution.Order

set_option autoImplicit false

/-!
# What nodes denote

The references that a node stands for under a name, read off the document alone: a composition, an
object or an array stands for the model of its own name, a schema with primitive types for the
common models of these, and a reference for what the schema of its component stands for under the
id of that. A resolution that begins outside of all components and succeeds answers with exactly
these references, whatever was resolved before, and all of them are registered then.

## Main definitions

* `Schema.denoted`, `Document.Denotes`: the references that a schema, or a node, stands for.
* `Document.Recalls`: the memo answers with what the components denote.

## Main results

* `Document.Denotes.unique`: a node denotes one list of references only.
* `ApiCatalog.Runs.denotes`: what a resolution answers with is what its node denotes.
-/

namespace ApiCatalog

/-! ## Denotations -/

/-- The references that a schema stands for under a hint. -/
def Schema.denoted (schema : Schema) (hint : ModelName) (nullable : Bool) : List ModelName :=
  if schema.composition?.isSome then [hint] else schema.references hint nullable

/-- The references that a node stands for under a hint. A reference goes by the id of its component,
whatever the hint. -/
inductive Document.Denotes (document : Document) :
    Node → ModelName → Bool → List ModelName → Prop
  | inPlace {schema : Schema} {hint : ModelName} {nullable : Bool} :
      Denotes document (.inline schema) hint nullable (schema.denoted hint nullable)
  | byName {target : String} {hint : ModelName} {nullable : Bool} {id : String} {schema : Schema}
      (hname : componentName target = .ok (some id)) (hstands : document.StandsFor id schema) :
      Denotes document (.reference target) hint nullable (schema.denoted id false)

/-- A node denotes one list of references only. -/
theorem Document.Denotes.unique {document : Document} {node : Node} {hint : ModelName}
    {nullable : Bool} {references references' : List ModelName}
    (h : document.Denotes node hint nullable references)
    (h' : document.Denotes node hint nullable references') : references = references' := by
  cases h with
  | inPlace =>
    cases h'
    rfl
  | byName hname hstands =>
    cases h' with
    | byName hname' hstands' =>
      rw [hname] at hname'
      cases hname'
      rw [hstands.unique hstands']

/-- A primitive kind is among those of a type set exactly if its type is in the set. -/
theorem mem_primitives_iff {types : TypeSet} {kind : PrimitiveKind} :
    kind ∈ types.primitives ↔ types.contains kind.schemaType = true := by
  unfold TypeSet.primitives
  rw [List.mem_filter]
  refine and_iff_right ?_
  cases kind <;> simp [PrimitiveKind.all]

/-- A schema that names a type stands for something. -/
theorem Schema.references_ne_nil {schema : Schema} (h : schema.types.isEmpty = false)
    (hint : ModelName) (nullable : Bool) : schema.references hint nullable ≠ [] := by
  have hin : ∀ type, schema.types.contains type = true →
      (schema.typesIn nullable).contains type = true := by
    intro type htype
    cases nullable <;> simp [Schema.typesIn, htype]
  have hprimitive : ∀ kind : PrimitiveKind, schema.types.contains kind.schemaType = true →
      kind.canonicalName ∈ schema.references hint nullable := by
    intro kind hkind
    have hmem : kind ∈ (schema.typesIn nullable).primitives := mem_primitives_iff.2 (hin _ hkind)
    simp only [Schema.references, typeReferences, List.mem_append]
    exact .inl (.inl (.inl (List.mem_map.2 ⟨kind, hmem, rfl⟩)))
  have hsome : ∃ name, name ∈ schema.references hint nullable := by
    obtain ⟨type, htype⟩ := List.exists_mem_of_ne_nil _ (by simpa [TypeSet.isEmpty] using h)
    have hcontains : schema.types.contains type = true := (List.mem_filter.1 htype).2
    cases type with
    | string => exact ⟨_, hprimitive .string hcontains⟩
    | integer => exact ⟨_, hprimitive .integer hcontains⟩
    | number => exact ⟨_, hprimitive .number hcontains⟩
    | boolean => exact ⟨_, hprimitive .boolean hcontains⟩
    | null => exact ⟨_, hprimitive .null hcontains⟩
    | object => exact ⟨hint, by simp [Schema.references, typeReferences, hin _ hcontains]⟩
    | array => exact ⟨hint, by simp [Schema.references, typeReferences, hin _ hcontains]⟩
  obtain ⟨name, hname⟩ := hsome
  exact List.ne_nil_of_mem hname

/-! ## Resolutions that realise a denotation -/

/-- A resolution answers with certain references; there are some, and all of them are
registered. -/
structure Resolution.Realizes (resolution : Resolution) (references : List ModelName)
    (state : ResolverState) : Prop where
  eq : resolution.references = references
  nonempty : resolution.references ≠ []
  registered : ∀ name ∈ resolution.references, state.repository.contains name = true

/-- What is registered stays registered. -/
theorem Resolution.Realizes.mono {resolution : Resolution} {references : List ModelName}
    {state state' : ResolverState} (h : resolution.Realizes references state)
    (hgrows : state.Grows state') : resolution.Realizes references state' :=
  ⟨h.eq, h.nonempty, fun name hname => hgrows.contains (h.registered name hname)⟩

namespace Document

variable (document : Document)

/-- Components that were resolved with success are recalled as what their schemas denote. -/
def Recalls (state : ResolverState) : Prop :=
  ∀ id resolution, state.memo.find? id = some resolution → resolution.succeeded = true →
    ∃ schema, document.StandsFor id schema ∧ resolution.Realizes (schema.denoted id false) state

variable {document} {state : ResolverState}

/-- What is recalled stays so while the memo is as it was. -/
theorem Recalls.mono {state' : ResolverState} (h : document.Recalls state)
    (hgrows : state.Grows state') (hmemo : state'.memo = state.memo) :
    document.Recalls state' := by
  intro id resolution hfind hsucceeded
  rw [hmemo] at hfind
  obtain ⟨schema, hstands, hrealizes⟩ := h id resolution hfind hsucceeded
  exact ⟨schema, hstands, hrealizes.mono hgrows⟩

/-- A component may be finished with what its schema denotes. -/
theorem Recalls.memoise {id : ModelName} {schema : Schema} {resolution : Resolution}
    (h : document.Recalls state) (hstands : document.StandsFor id schema)
    (hr : resolution.succeeded = true → resolution.Realizes (schema.denoted id false) state) :
    document.Recalls (state.memoise id resolution) := by
  have hkeep : ∀ {found : Resolution} {references : List ModelName},
      found.Realizes references state →
      found.Realizes references (state.memoise id resolution) := fun hfound =>
    ⟨hfound.eq, hfound.nonempty, fun name hname => by
      rw [ResolverState.repository_memoise]
      exact hfound.registered name hname⟩
  intro other found hfound hsucceeded
  rcases ResolverState.find?_memoise_cases hfound with hold | ⟨rfl, rfl⟩
  · obtain ⟨schema', hstands', hrealizes⟩ := h other found hold hsucceeded
    exact ⟨schema', hstands', hkeep hrealizes⟩
  · exact ⟨schema, hstands, hkeep (hr hsucceeded)⟩

end Document

/-- If a stage succeeds, its answer realises what its schema denotes. Of nodes this is said only
outside of all components. -/
def Stage.Realized (document : Document) (active : List ModelName) (state : ResolverState)
    {kind : StageKind} : Stage kind → kind.Answer → Prop
  | .atNode node hint nullable, resolution => active = [] → resolution.succeeded = true →
    ∃ references, document.Denotes node hint nullable references ∧
      resolution.Realizes references state
  | .atSchema schema hint nullable, resolution => resolution.succeeded = true →
    resolution.Realizes (schema.denoted hint nullable) state
  | .atMembers _ _ _ _ _, _ => True
  | .atProperties _ _ _ _, _ => True
  | .atObject schema hint, done => done = true → schema.types.contains .object = true →
    state.repository.contains hint = true
  | .atArray schema hint, done => done = true → schema.types.contains .array = true →
    state.repository.contains hint = true

/-- **What a resolution answers with is what its node denotes**, and all of it is registered.

**Proof sketch.** Induction on the run. A composition is registered last, and a schema with types
refers to models that were registered at once, to its object and to its array. A reference is
answered from the memo, or with what the schema of its component is resolved to; back to a component
that is being resolved it can lead only from within one. -/
theorem Runs.denotes {context : Context} {kind : StageKind} {active : List ModelName}
    {stage : Stage kind} {state state' : ResolverState} {answer : kind.Answer}
    (h : Runs context active stage state answer state')
    (hrecalls : context.document.Recalls state) :
    context.document.Recalls state' ∧ stage.Realized context.document active state' answer := by
  induction h with
  | cancelled => exact ⟨hrecalls, fun _ hfailed => nomatch hfailed⟩
  | inline _ _ ih =>
    obtain ⟨hrecalls', hrealized⟩ := ih hrecalls
    exact ⟨hrecalls', fun _ hsucceeded => ⟨_, .inPlace, hrealized hsucceeded⟩⟩
  | refused | missing =>
    exact ⟨hrecalls.mono (.record _ _) rfl, fun _ hfailed => nomatch hfailed⟩
  | finished _ hname hmemo =>
    refine ⟨hrecalls, fun _ hsucceeded => ?_⟩
    obtain ⟨schema, hstands, hrealizes⟩ := hrecalls _ _ hmemo hsucceeded
    exact ⟨_, .byName hname hstands, hrealizes⟩
  | busy _ _ _ hactive =>
    refine ⟨hrecalls, fun hnone => ?_⟩
    rw [hnone] at hactive
    exact absurd hactive List.not_mem_nil
  | entered _ hname _ _ hfound _ ih =>
    obtain ⟨hrecalls', hrealized⟩ := ih hrecalls
    have hstands := standsFor_of_findSchema hname hfound
    refine ⟨hrecalls'.memoise hstands hrealized, fun _ hsucceeded => ?_⟩
    have hrealizes := hrealized hsucceeded
    exact ⟨_, .byName hname hstands, hrealizes.eq, hrealizes.nonempty, fun name hname => by
      rw [ResolverState.repository_memoise]
      exact hrealizes.registered name hname⟩
  | composed hshape _ _ ih =>
    refine ⟨(ih hrecalls).1.mono (.register _ _ _) rfl, fun _ => ⟨?_, ?_, ?_⟩⟩
    · simp [Schema.denoted, hshape, Resolution.single]
    · exact List.cons_ne_nil _ _
    · intro name hname
      obtain rfl := List.mem_singleton.1 hname
      exact Repository.contains_register_self
  | abandoned _ _ _ ih => exact ⟨(ih hrecalls).1, fun hfailed => nomatch hfailed⟩
  | untyped => exact ⟨hrecalls.mono (.record _ _) rfl, fun hfailed => nomatch hfailed⟩
  | typed hshape htypes hobject harray ihObject ihArray =>
    obtain ⟨hrecalls₁, hrealized₁⟩ := ihObject
      (hrecalls.mono (.registerAll _ _ _) (ResolverState.memo_registerAll _ _ _))
    obtain ⟨hrecalls₂, hrealized₂⟩ := ihArray hrecalls₁
    refine ⟨hrecalls₂, fun hsucceeded => ⟨?_, Schema.references_ne_nil htypes _ _, ?_⟩⟩
    · simp [Schema.denoted, hshape]
    · refine answers_typed (fun model hmodel => ?_) ?_ hrealized₂ hsucceeded
      · exact (hobject.grows.trans harray.grows).contains (contains_registerAll hmodel)
      · exact fun hdone hcalled => harray.grows.contains (hrealized₁ hdone hcalled)
  | allMembers => exact ⟨hrecalls, trivial⟩
  | membersLeft => exact ⟨hrecalls, trivial⟩
  | nextMember _ _ _ ihFirst ihRest => exact ⟨(ihRest (ihFirst hrecalls).1).1, trivial⟩
  | allProperties => exact ⟨hrecalls, trivial⟩
  | nextProperty _ _ ihFirst ihRest => exact ⟨(ihRest (ihFirst hrecalls).1).1, trivial⟩
  | noObject hcalled | noArray hcalled =>
    refine ⟨hrecalls, fun _ hcalled' => ?_⟩
    rw [hcalled] at hcalled'
    cases hcalled'
  | knownObject _ hknown | knownArray _ hknown => exact ⟨hrecalls, fun _ _ => hknown⟩
  | lostObject _ _ _ _ ih => exact ⟨(ih hrecalls).1, fun hfailed => nomatch hfailed⟩
  | object _ _ _ _ ih =>
    exact ⟨(ih hrecalls).1.mono (.register _ _ _) rfl,
      fun _ _ => Repository.contains_register_self⟩
  | noItems | anyItems =>
    exact ⟨hrecalls.mono (.record _ _) rfl, fun hfailed => nomatch hfailed⟩
  | lostArray _ _ _ _ _ ih => exact ⟨(ih hrecalls).1, fun hfailed => nomatch hfailed⟩
  | array _ _ _ _ _ ih =>
    exact ⟨(ih hrecalls).1.mono (.register _ _ _) rfl,
      fun _ _ => Repository.contains_register_self⟩

end ApiCatalog
