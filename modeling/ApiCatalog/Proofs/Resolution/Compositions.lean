import ApiCatalog.Proofs.Resolution.Entrances

set_option autoImplicit false

/-!
# What a composition is made of

The members of a composition are resolved one after another, each under a name of its own and from
the state that the one before has left. The model of the composition refers to whatever those of
them refer to that were resolved with success. In a union with null, a member of a single other type
is resolved as if null were among its types; nothing inside it learns of that, and neither do
references and compositions.

## Main definitions

* `Node.GainsNull`: null is added to the types of a member.
* `Node.withNull`: a node with null among its types.
* `ApiCatalog.MemberTurn`: how one member is resolved.
* `ApiCatalog.MembersTaken`: how the members are resolved one after another.

## Main results

* `ApiCatalog.anyAdmitsNull_iff`: when a union admits null.
* `ApiCatalog.memberTurn_of_runs`: how a member is resolved.
* `ApiCatalog.composition_of_members`: the model of a composition.
-/

namespace ApiCatalog

/-! ## Members that gain null -/

namespace TypeSet

/-- The types in a set are those that it contains. -/
theorem mem_toList {types : TypeSet} {type : SchemaType} :
    type ∈ types.toList ↔ types.contains type = true := by
  have hall : type ∈ SchemaType.all := by cases type <;> decide
  rw [toList, List.mem_filter]
  exact and_iff_right hall

/-- A set of size one contains exactly one type. -/
theorem size_eq_one_iff {types : TypeSet} :
    types.size = 1 ↔ ∃ type, ∀ other, types.contains other = true ↔ other = type := by
  constructor
  · intro hsize
    obtain ⟨type, htype⟩ := List.length_eq_one_iff.1 hsize
    exact ⟨type, fun other => by rw [← mem_toList, htype, List.mem_singleton]⟩
  · rintro ⟨type, htype⟩
    have hfilter : types.toList = SchemaType.all.filter (· = type) :=
      List.filter_congr fun other _ => Bool.eq_iff_iff.2 (by simpa using htype other)
    rw [size, hfilter]
    cases type <;> decide

/-- A set that contains a type is not empty. -/
theorem isEmpty_of_contains {types : TypeSet} {type : SchemaType}
    (h : types.contains type = true) : types.isEmpty = false := by
  rw [isEmpty, List.isEmpty_eq_false_iff_exists_mem]
  exact ⟨type, mem_toList.2 h⟩

/-- Null comes last among the primitive kinds. -/
theorem primitives_insert_null {types : TypeSet} (h : types.contains .null = false) :
    (types.insert .null).primitives = types.primitives ++ [.null] := by
  obtain ⟨s, i, n, b, z, o, a⟩ := types
  obtain rfl : z = false := h
  cases s <;> cases i <;> cases n <;> cases b <;> rfl

end TypeSet

/-- A schema has no combinator, and names one type, which is not null. -/
structure Schema.IsSingle (schema : Schema) : Prop where
  oneOf : schema.oneOf = []
  allOf : schema.allOf = []
  anyOf : schema.anyOf = []
  type : ∃ type, type ≠ SchemaType.null ∧
    ∀ other, schema.types.contains other = true ↔ other = type

/-- Null is added to the types of a member: the composition is a union, null is among the types of
some member once that is dereferenced, and the member itself is written in place, has no combinator
and names one type, which is not null. -/
structure Node.GainsNull (document : Document) (kind : CompositionKind) (members : List Node)
    (member : Node) : Prop where
  union : kind = .anyOf
  admitted : ∃ other ∈ members, ∃ schema, document.schema other = .ok (.ok schema) ∧
    schema.types.contains .null = true
  single : ∃ schema : Schema, member = .inline schema ∧ schema.IsSingle

/-- A schema with null among its types. -/
def Schema.withNull (schema : Schema) : Schema :=
  { schema with types := schema.types.insert .null }

/-- A node with null among its types, if it is written in place. -/
def Node.withNull : Node → Node
  | .reference target => .reference target
  | .inline schema => .inline schema.withNull

/-- **A union admits null** if null is among the types of some member. -/
theorem anyAdmitsNull_iff {document : Document} {members : List Node} {found : Bool}
    (h : anyAdmitsNull document members = .ok found) :
    found = true ↔ ∃ other ∈ members, ∃ schema, document.schema other = .ok (.ok schema) ∧
      schema.types.contains .null = true := by
  induction members with
  | nil =>
    cases h
    simp
  | cons member rest ih =>
    have hmember : ∀ admits, admitsNull document member = .ok admits →
        (admits = true ↔ ∃ schema, document.schema member = .ok (.ok schema) ∧
          schema.types.contains .null = true) := by
      intro admits hadmits
      unfold admitsNull at hadmits
      split at hadmits
      · cases hadmits
      · next hschema =>
        cases hadmits
        simp [hschema]
      · next hschema =>
        cases hadmits
        simp [hschema]
    rw [anyAdmitsNull] at h
    split at h
    · cases h
    · next hadmits =>
      cases h
      exact iff_of_true rfl ⟨member, List.mem_cons_self, (hmember true hadmits).1 rfl⟩
    · next hadmits =>
      have hnot := mt (hmember false hadmits).2 Bool.false_ne_true
      rw [ih h]
      constructor
      · rintro ⟨other, hother, hnull⟩
        exact ⟨other, List.mem_cons_of_mem _ hother, hnull⟩
      · rintro ⟨other, hother, hnull⟩
        rcases List.mem_cons.1 hother with rfl | hother
        · exact absurd hnull hnot
        · exact ⟨other, hother, hnull⟩

/-- What is offered to the members of a composition, and to which of them it applies. -/
theorem gainsNull_iff {document : Document} {kind : CompositionKind} {members : List Node}
    {offered : Bool} (h : offersNull document kind members = .ok offered) (schema : Schema) :
    Node.GainsNull document kind members (.inline schema) ↔
      (offered && Node.isSingleNonNull (.inline schema)) = true ∧ schema.composition? = none := by
  have hoffered : offered = true ↔ kind = .anyOf ∧ ∃ other ∈ members, ∃ schema,
      document.schema other = .ok (.ok schema) ∧ schema.types.contains .null = true := by
    cases kind with
    | anyOf => rw [anyAdmitsNull_iff h, eq_self, true_and]
    | oneOf | allOf =>
      cases h
      simp
  rw [Bool.and_eq_true, hoffered, Node.isSingleNonNull, Bool.and_eq_true, decide_eq_true_iff,
    TypeSet.size_eq_one_iff, Bool.not_eq_true']
  constructor
  · rintro ⟨hkind, hnull, _, ⟨⟩, hone, hall, hany, type, hne, htype⟩
    refine ⟨⟨⟨hkind, hnull⟩, ⟨type, htype⟩, ?_⟩, ?_⟩
    · exact Bool.eq_false_iff.2 fun hcontains => hne ((htype .null).1 hcontains).symm
    · simp [Schema.composition?, hone, hall, hany]
  · rintro ⟨⟨⟨hkind, hnull⟩, ⟨type, htype⟩, hnot⟩, hshape⟩
    obtain ⟨hone, hall, hany⟩ := Schema.isEmpty_of_composition?_eq_none hshape
    refine ⟨hkind, hnull, schema, rfl, by simpa using hone, by simpa using hall,
      by simpa using hany, type, ?_, htype⟩
    rintro rfl
    rw [(htype .null).2 rfl] at hnot
    cases hnot

/-! ## One member -/

section Members

variable {context : Context} {active : List ModelName}

/-- Null that its place adds to a schema with types is as good as null among the types. -/
theorem resolveSchema_withNull {follow : FollowReference} {schema : Schema}
    (hshape : schema.composition? = none) (htypes : schema.types.isEmpty = false)
    (hint : ModelName) :
    resolveSchema context follow schema.withNull hint false =
      resolveSchema context follow schema hint true := by
  have hobject : (Stage.atObject schema.withNull hint).step context follow =
      (Stage.atObject schema hint).step context follow := by
    simp [Stage.step, Schema.withNull]
  have harray : (Stage.atArray schema.withNull hint).step context follow =
      (Stage.atArray schema hint).step context follow := by
    simp [Stage.step, Schema.withNull]
  have hnull : schema.withNull.types.contains .null = true := by simp [Schema.withNull]
  have hshape' : schema.withNull.composition? = none := hshape
  rw [resolveSchema_of_types context follow hshape htypes,
    resolveSchema_of_types context follow hshape' (TypeSet.isEmpty_of_contains hnull), hobject,
    harray]
  rfl

/-- The references of a schema with types to models that are its own. -/
def Schema.ownReferences (schema : Schema) (hint : ModelName) : List ModelName :=
  (schema.enumerations hint).map Model.name ++
    (if schema.types.contains .object then [hint] else []) ++
    (if schema.types.contains .array then [hint] else [])

/-- A schema with types refers to primitive models, and then to its own. -/
theorem Schema.references_eq_append (schema : Schema) (hint : ModelName) (nullable : Bool) :
    schema.references hint nullable =
      (schema.typesIn nullable).primitives.map PrimitiveKind.canonicalName ++
        schema.ownReferences hint := by
  cases nullable <;>
    simp [Schema.references, typeReferences, Schema.typesIn, Schema.ownReferences]

/-- Models are registered in turn. -/
theorem registerAll_append {cancelAt : Option Nat} {state : ResolverState}
    {models others : List Model} : state.registerAll cancelAt (models ++ others) =
      (state.registerAll cancelAt models).registerAll cancelAt others :=
  List.foldl_append

/-- **A schema to which its place adds null** is resolved as it is by itself, once the models of its
own types and of null are registered; only its own references tell the difference. -/
theorem confined_of_nullable {schema : Schema} {hint : ModelName} {resolution : Resolution}
    {state state' : ResolverState}
    (hshape : schema.composition? = none) (htypes : schema.types.isEmpty = false)
    (hnull : schema.types.contains .null = false)
    (h : Runs context active (.atSchema schema hint true) state resolution state') :
    ∃ own others,
      Runs context active (.atSchema schema hint false)
        (state.registerAll context.cancelAt
          ((schema.types.insert .null).primitives.map .primitive)) own state' ∧
      own.references = schema.types.primitives.map PrimitiveKind.canonicalName ++ others ∧
      resolution.references = schema.types.primitives.map PrimitiveKind.canonicalName ++
        PrimitiveKind.canonicalName .null :: others ∧
      resolution.succeeded = own.succeeded := by
  obtain ⟨objectDone, middle, arrayDone, hobject, harray, rfl⟩ := h.of_types hshape htypes
  have hprimitives := TypeSet.primitives_insert_null hnull
  have hflat : (state.registerAll context.cancelAt
        ((schema.types.insert .null).primitives.map .primitive)).registerAll context.cancelAt
          (schema.flatModels hint false) =
      state.registerAll context.cancelAt (schema.flatModels hint true) := by
    have hknown : ∀ model ∈ schema.types.primitives.map Model.primitive,
        (state.registerAll context.cancelAt
          ((schema.types.insert .null).primitives.map .primitive)).repository.contains
            model.name = true := by
      intro model hmodel
      refine contains_registerAll ?_
      rw [hprimitives, List.map_append]
      exact List.mem_append_left _ hmodel
    show ResolverState.registerAll _ _ (schema.types.primitives.map .primitive ++ _) =
      ResolverState.registerAll _ _ ((schema.types.insert .null).primitives.map .primitive ++ _)
    rw [registerAll_append, registerAll_append, registerAll_of_contained hknown]
  rw [← hflat] at hobject
  refine ⟨_, schema.ownReferences hint, .typed hshape htypes hobject harray,
    schema.references_eq_append hint false, ?_, rfl⟩
  show schema.references hint true = _
  rw [schema.references_eq_append, Schema.typesIn, if_pos rfl, hprimitives, List.map_append,
    List.append_assoc]
  rfl

/-- **A reference goes by its target**, whatever the hint and whatever its place adds: only the
report of a reference that is refused mentions the hint. -/
theorem reference_of_reference {target : String} {hint : ModelName} {nullable : Bool}
    {resolution : Resolution} {state state' : ResolverState}
    (h : Runs context active (.atNode (.reference target) hint nullable) state resolution state')
    (other : ModelName) (nullable' : Bool) :
    ∃ after, Runs context active (.atNode (.reference target) other nullable') state resolution
      after ∧ (other = hint → after = state') ∧
      (after = state' ∨ ∃ error, resolution = .failed ∧
        state' = state.record (.unresolvedReference hint target error) ∧
        after = state.record (.unresolvedReference other target error)) := by
  cases h with
  | cancelled hcancelled => exact ⟨state, .cancelled hcancelled, fun _ => rfl, .inl rfl⟩
  | refused hlive hname =>
    exact ⟨_, .refused hlive hname, fun h => by rw [h], .inr ⟨_, rfl, rfl, rfl⟩⟩
  | finished hlive hname hmemo =>
    exact ⟨_, .finished hlive hname hmemo, fun _ => rfl, .inl rfl⟩
  | busy hlive hname hmemo hactive =>
    exact ⟨_, .busy hlive hname hmemo hactive, fun _ => rfl, .inl rfl⟩
  | missing hlive hname hmemo hfresh hfound =>
    exact ⟨_, .missing hlive hname hmemo hfresh hfound, fun h => by rw [h],
      .inr ⟨_, rfl, rfl, rfl⟩⟩
  | entered hlive hname hmemo hfresh hfound hschema =>
    exact ⟨_, .entered hlive hname hmemo hfresh hfound hschema, fun _ => rfl, .inl rfl⟩

/-- How one member of a composition is resolved under a name of its own. -/
structure MemberTurn (context : Context) (active : List ModelName) (kind : CompositionKind)
    (members : List Node) (member : Node) (name : ModelName) (state : ResolverState)
    (resolution : Resolution) (state' : ResolverState) : Prop where
  /-- A member that gains null is resolved as if null were among its types. -/
  gains : member.GainsNull context.document kind members →
    resolveNode context (followReference context active) member.withNull name false state =
      .ok resolution state'
  /-- Every other member is resolved as it is. -/
  keeps : ¬ member.GainsNull context.document kind members →
    resolveNode context (followReference context active) member name false state =
      .ok resolution state'
  /-- Null adds to the references of the member itself, and to nothing else: the schema is resolved
  as it is once the models of its types and of null are registered. -/
  confined : ∀ schema, member = .inline schema → member.GainsNull context.document kind members →
    ∃ own others,
      resolveSchema context (followReference context active) schema name false
        (state.registerAll context.cancelAt
          ((schema.types.insert .null).primitives.map .primitive)) = .ok own state' ∧
      own.references = schema.types.primitives.map PrimitiveKind.canonicalName ++ others ∧
      resolution.references = schema.types.primitives.map PrimitiveKind.canonicalName ++
        PrimitiveKind.canonicalName .null :: others ∧
      resolution.succeeded = own.succeeded
  /-- A reference comes to what it comes to by itself. -/
  reference : ∀ target, member = .reference target → ∀ other nullable, ∃ after,
    resolveNode context (followReference context active) (.reference target) other nullable state =
      .ok resolution after ∧ (other = name → after = state') ∧
    (after = state' ∨ ∃ error, resolution = .failed ∧
      state' = state.record (.unresolvedReference name target error) ∧
      after = state.record (.unresolvedReference other target error))

/-- **How a member is resolved**, by what the composition offers to its members.

**Proof sketch.** References and compositions do not look at what is offered, so it is only a schema
of a single type to which null is added, and that is one with types. -/
theorem memberTurn_of_runs {kind : CompositionKind} {members : List Node} {offered : Bool}
    {member : Node} {name : ModelName} {resolution : Resolution} {state state' : ResolverState}
    (hoffered : offersNull context.document kind members = .ok offered)
    (hlive : state.cancelled = false)
    (h : Runs context active (.atNode member name (offered && member.isSingleNonNull)) state
      resolution state') :
    MemberTurn context active kind members member name state resolution state' := by
  cases member with
  | reference target =>
    have hnot : ¬ Node.GainsNull context.document kind members (.reference target) :=
      fun hgains => by obtain ⟨_, hinline, -⟩ := hgains.single; cases hinline
    have hsame := reference_of_reference h
    refine ⟨fun hgains => absurd hgains hnot, fun _ => ?_, fun _ _ hgains => absurd hgains hnot, ?_⟩
    · obtain ⟨after, hrun, hafter, -⟩ := hsame name false
      rw [← hafter rfl]
      exact hrun.step_eq_ok
    · rintro _ ⟨⟩ other nullable
      obtain ⟨after, hrun, hafter⟩ := hsame other nullable
      exact ⟨after, hrun.step_eq_ok, hafter⟩
  | inline schema =>
    have hgains := gainsNull_iff hoffered schema
    have hschema : Runs context active
        (.atSchema schema name (offered && Node.isSingleNonNull (.inline schema))) state resolution
          state' := by
      cases h with
      | cancelled hcancelled =>
        rw [hlive] at hcancelled
        cases hcancelled
      | inline _ hschema => exact hschema
    refine ⟨fun hnull => ?gains, fun hnull => ?keeps, ?confined, fun _ heq => nomatch heq⟩
    case gains =>
      obtain ⟨hflag, hshape⟩ := hgains.1 hnull
      obtain ⟨_, ⟨⟩, hsingle⟩ := hnull.single
      obtain ⟨type, -, htype⟩ := hsingle.type
      rw [hflag] at hschema
      refine Resolver.unlessCancelled_of_not_cancelled hlive ?_
      rw [resolveSchema_withNull hshape (TypeSet.isEmpty_of_contains ((htype type).2 rfl))]
      exact hschema.step_eq_ok
    case keeps =>
      refine Resolver.unlessCancelled_of_not_cancelled hlive ?_
      cases hshape : schema.composition? with
      | none =>
        have hflag : (offered && Node.isSingleNonNull (.inline schema)) = false :=
          Bool.eq_false_iff.2 fun hflag => hnull (hgains.2 ⟨hflag, hshape⟩)
        rw [hflag] at hschema
        exact hschema.step_eq_ok
      | some composition =>
        have hstep := hschema.step_eq_ok
        rw [Stage.step, resolveSchema_of_composition _ _ hshape] at hstep
        rw [resolveSchema_of_composition _ _ hshape]
        exact hstep
    case confined =>
      rintro _ ⟨⟩ hnull
      obtain ⟨hflag, hshape⟩ := hgains.1 hnull
      obtain ⟨_, ⟨⟩, hsingle⟩ := hnull.single
      obtain ⟨type, hne, htype⟩ := hsingle.type
      have hfree : schema.types.contains .null = false :=
        Bool.eq_false_iff.2 fun hcontains => hne ((htype .null).1 hcontains).symm
      rw [hflag] at hschema
      obtain ⟨own, others, hown, hreferences⟩ := confined_of_nullable hshape
        (TypeSet.isEmpty_of_contains ((htype type).2 rfl)) hfree hschema
      exact ⟨own, others, hown.step_eq_ok, hreferences⟩

/-! ## All members -/

/-- How the members of a composition that are left are resolved one after another, from number
`index` on: each under its own name and from the state that the one before has left, until there is
none or the extraction is cancelled. -/
inductive MembersTaken (context : Context) (active : List ModelName) (kind : CompositionKind)
    (members : List Node) (hint : ModelName) :
    Nat → List Node → ResolverState → List Resolution → ResolverState → Prop where
  /-- No member is left. -/
  | done {index state} : MembersTaken context active kind members hint index [] state [] state
  /-- A member is left, but nothing is resolved any more. -/
  | cut {index member rest state} :
      state.cancelled = true →
      MembersTaken context active kind members hint index (member :: rest) state [] state
  /-- One member, then the others. -/
  | next {index member rest state resolution state₁ resolutions state₂} :
      state.cancelled = false →
      MemberTurn context active kind members member (Naming.member hint index) state resolution
        state₁ →
      MembersTaken context active kind members hint (index + 1) rest state₁ resolutions state₂ →
      MembersTaken context active kind members hint index (member :: rest) state
        (resolution :: resolutions) state₂

/-- No member is resolved twice. -/
theorem MembersTaken.length_le {kind : CompositionKind} {members rest : List Node}
    {hint : ModelName} {index : Nat} {resolutions : List Resolution} {state state' : ResolverState}
    (h : MembersTaken context active kind members hint index rest state resolutions state') :
    resolutions.length ≤ rest.length := by
  induction h with
  | done => exact Nat.le_refl 0
  | cut => exact Nat.zero_le _
  | next _ _ _ ih => exact Nat.succ_le_succ ih

/-- The references of those members that were resolved with success. -/
def memberReferences (resolutions : List Resolution) : List ModelName :=
  (resolutions.filter Resolution.succeeded).flatMap Resolution.references

/-- The members that are left are resolved one after another, and what they refer to is gathered
unless the extraction is cancelled before one of them.

**Proof sketch.** Induction on the members that are left, whatever has been gathered before. -/
theorem membersTaken_of_runs {kind : CompositionKind} {members rest : List Node} {offered : Bool}
    {hint : ModelName} {index : Nat} {result : MemberResult} {answer : Option MemberResult}
    {state state' : ResolverState}
    (hoffered : offersNull context.document kind members = .ok offered)
    (h : Runs context active (.atMembers offered rest hint index result) state answer state') :
    ∃ resolutions,
      MembersTaken context active kind members hint index rest state resolutions state' ∧
      ((resolutions.length < rest.length ∧ answer = none ∧ state'.cancelled = true) ∨
        (resolutions.length = rest.length ∧
          answer = some ⟨result.references ++ memberReferences resolutions,
            result.succeeded && resolutions.all Resolution.succeeded⟩)) := by
  induction rest generalizing index result state with
  | nil =>
    cases h
    exact ⟨[], .done, .inr ⟨rfl, by simp [memberReferences]⟩⟩
  | cons member rest ih =>
    cases h with
    | membersLeft hcancelled =>
      exact ⟨[], .cut hcancelled, .inl ⟨by simp, rfl, hcancelled⟩⟩
    | @nextMember _ _ _ _ _ _ _ _ resolution _ _ _ hlive hfirst hrest =>
      obtain ⟨resolutions, htaken, hend⟩ := ih hrest
      refine ⟨resolution :: resolutions,
        .next hlive (memberTurn_of_runs hoffered hlive hfirst) htaken, ?_⟩
      rcases hend with ⟨hlength, hanswer⟩ | ⟨hlength, hanswer⟩
      · exact .inl ⟨by simpa using hlength, hanswer⟩
      · refine .inr ⟨by simpa using hlength, ?_⟩
        rw [hanswer, MemberResult.succeeded_add]
        cases hsucceeded : resolution.succeeded <;>
          simp [MemberResult.add, memberReferences, hsucceeded]

/-- **The model of a composition**: the members of its first combinator that has any are resolved
one after another, and unless the extraction is cancelled before one of them, the composition is
registered under the hint if that is still free, with the references of those members that were
resolved with success.

**Proof sketch.** A composition is resolved by its members (`Runs.of_composition`), these are
resolved one after another (`membersTaken_of_runs`), and the model comes last. -/
theorem composition_of_members {schema : Schema} {kind : CompositionKind} {members : List Node}
    {hint : ModelName} {nullable : Bool} {resolution : Resolution} {state state' : ResolverState}
    (hshape : schema.composition? = some (kind, members))
    (h : resolveSchema context (followReference context active) schema hint nullable state =
      .ok resolution state') :
    ∃ resolutions middle,
      MembersTaken context active kind members hint 0 members state resolutions middle ∧
      (resolutions.length < members.length →
        middle.cancelled = true ∧ resolution = .single hint false ∧ state' = middle) ∧
      (resolutions.length = members.length →
        resolution = .single hint (resolutions.all Resolution.succeeded) ∧
        state' = middle.register context.cancelAt
          (.composition hint kind (memberReferences resolutions)) ∧
        (middle.repository.contains hint = false →
          state'.repository.find? hint =
            some (.composition hint kind (memberReferences resolutions)))) := by
  have hrun : Runs context active (.atSchema schema hint nullable) state resolution state' :=
    sound_of_follow (runs_followReference context active) schema hint nullable _ _ _ h
  obtain ⟨offered, answer, middle, hoffered, hmembers, hend⟩ := hrun.of_composition hshape
  obtain ⟨resolutions, htaken, hanswer⟩ := membersTaken_of_runs hoffered hmembers
  refine ⟨resolutions, middle, htaken, ?_⟩
  rcases hanswer with ⟨hlength, rfl, hcancelled⟩ | ⟨hlength, rfl⟩
  · rcases hend with ⟨-, hresolution, hstate⟩ | ⟨_, hnone, -⟩
    · exact ⟨fun _ => ⟨hcancelled, hresolution, hstate⟩, fun heq => absurd heq (by omega)⟩
    · cases hnone
  · refine ⟨fun hlt => absurd hlt (by omega), fun _ => ?_⟩
    rcases hend with ⟨hnone, -⟩ | ⟨_, hsome, hresolution, rfl⟩
    · cases hnone
    · cases hsome
      refine ⟨by simpa using hresolution, rfl, fun hfree => ?_⟩
      rw [ResolverState.repository_register, Repository.find?_register,
        Repository.find?_eq_none_iff.2 hfree, Option.none_or]
      simp [Model.name]

end Members

/-- A document with a component that is null. -/
def nothingDocument : Document :=
  .ofSchemas [("Nothing", .inline { types := .ofList [.null] })]

/-- An integer, something that is not said, the null component, a text or a truth value, and a
nested choice. -/
def looseMembers : List Node :=
  [.inline { types := .ofList [.integer] }, .inline {},
    .reference "#/components/schemas/Nothing",
    .inline { types := .ofList [.string, .boolean] },
    .inline { types := .ofList [.string],
              oneOf := [.inline { types := .ofList [.object],
                                  properties := [("p", .inline { types := .ofList [.string] })] }] }]

/-- Only the integer gains null, and only what is not said is left out. -/
theorem composition_looseUnion :
    let context : Context := ⟨nothingDocument, none⟩
    let union : Schema := { anyOf := looseMembers }
    union.composition? = some (.anyOf, looseMembers) ∧
    ∃ state resolutions middle,
      resolveSchema context (followReference context []) union "U" false {} =
        .ok (.single "U" false) state ∧
      MembersTaken context [] .anyOf looseMembers "U" 0 looseMembers {} resolutions middle ∧
      resolutions.length = 5 ∧
      state = middle.register none (.composition "U" .anyOf (memberReferences resolutions)) ∧
      state.repository.find? "U" = some (.composition "U" .anyOf
        ["#/primitive/integer", "#/primitive/null", "#/primitive/null", "#/primitive/string",
          "#/primitive/boolean", "U#4"]) ∧
      state.repository.find? "U#4#0" = some (.object "U#4#0"
        (.ofList [("p", ⟨"p", ["#/primitive/string"], .optional⟩)])) := by
  intro context union
  have hcheck : (resolveSchema context (followReference context []) union "U" false).answersWith {}
      (fun resolution state =>
        resolution = .single "U" false && !state.cancelled &&
        state.repository.find? "U" = some (.composition "U" .anyOf
          ["#/primitive/integer", "#/primitive/null", "#/primitive/null", "#/primitive/string",
            "#/primitive/boolean", "U#4"]) &&
        state.repository.find? "U#4#0" = some (.object "U#4#0"
          (.ofList [("p", ⟨"p", ["#/primitive/string"], .optional⟩)]))) = true := by
    decide +kernel
  obtain ⟨resolution, state, hanswer, hstate⟩ := Resolver.exists_of_answersWith hcheck
  simp only [Bool.and_eq_true, decide_eq_true_eq, Bool.not_eq_true'] at hstate
  obtain ⟨⟨⟨rfl, hlive⟩, hunion⟩, hobject⟩ := hstate
  have hshape : union.composition? = some (.anyOf, looseMembers) := rfl
  obtain ⟨resolutions, middle, htaken, hcut, hall⟩ := composition_of_members hshape hanswer
  have hlength : resolutions.length = looseMembers.length := by
    refine (Nat.lt_or_eq_of_le htaken.length_le).resolve_left fun hlt => ?_
    obtain ⟨hcancelled, -, rfl⟩ := hcut hlt
    rw [hlive] at hcancelled
    cases hcancelled
  exact ⟨hshape, state, resolutions, middle, hanswer, htaken, hlength, (hall hlength).2.1, hunion,
    hobject⟩

end ApiCatalog
