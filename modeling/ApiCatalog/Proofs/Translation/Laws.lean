import ApiCatalog.Proofs.Translation.Basic

set_option autoImplicit false

/-!
# Laws of the translation

What a translation depends on: it looks at the references that it meets and at nothing else, and it
succeeds exactly if these do and there is no fault.

## Main definitions

* `ApiCatalog.CoversUnions`: findings with the references among the members of unions.
* `ApiCatalog.Clear`: findings that do not stand in the way of success.

## Main results

* `ApiCatalog.mem_targets_of_findings`: the references that are met are in the schema.
* `ApiCatalog.coversUnions_findings`: so are those among the members of a union that is met.
* `ApiCatalog.translateSchema_congr`: a translation depends only on the references that it meets.
* `ApiCatalog.succeeded_translateSchema_iff`: when a translation succeeds.
* `ApiCatalog.references_translateSchema`: the references of a translation.
-/

namespace ApiCatalog

/-! ## References that are met -/

/-- The names of enumerations are no references. -/
theorem not_mem_ownEnumerations {schema : Schema} {hint : ModelName} {target : String} :
    Finding.reference target ∉ schema.ownEnumerations hint := by
  simp [Schema.ownEnumerations]

/-- A union is no reference. -/
theorem not_mem_unionFindings {kind : CompositionKind} {members : List Node} {target : String} :
    Finding.reference target ∉ unionFindings kind members := by
  cases kind <;> simp [unionFindings]

/-- What is met in the object or the array of a schema is met in its properties or its items. -/
theorem mem_facetFindings {schema : Schema} {hint : ModelName} {finding : Finding}
    (h : finding ∈ schema.facetFindings hint) :
    finding ∈ propertyFindings schema.properties hint ∨
      finding ∈ itemFindings schema.items hint := by
  unfold Schema.facetFindings at h
  split at h
  · cases h
  · split at h
    · exact .inl h
    · split at h
      · exact .inr h
      · cases h

/-- **The references that a translation meets are in the schema.**

**Proof sketch.** Induction on the parts: what is met in a schema is met in its members, or in its
properties or items. -/
theorem mem_targets_of_findings {schema : Schema} {hint : ModelName} {target : String}
    (h : .reference target ∈ schema.findings hint) : target ∈ schema.targets := by
  refine (Schema.induction
    (fun node => ∀ hint, .reference target ∈ node.findings hint → target ∈ node.targets)
    (fun schema => ∀ hint, .reference target ∈ schema.findings hint → target ∈ schema.targets)
    (fun members => ∀ hint index, .reference target ∈ memberFindings members hint index →
      target ∈ memberTargets members)
    (fun properties => ∀ hint, .reference target ∈ propertyFindings properties hint →
      target ∈ propertyTargets properties)
    (fun items => ∀ hint, .reference target ∈ itemFindings items hint →
      target ∈ itemTargets items)
    ?reference ?inline ?composed ?untyped ?typed ?noMembers ?nextMember ?noProperties
    ?nextProperty ?noItems ?anyItems ?items).2.1 schema hint h
  case reference =>
    intro other hint h
    simpa [Node.findings, Node.targets] using h
  case inline =>
    intro schema ih hint h
    exact ih hint h
  case composed =>
    intro schema kind members hshape ih hint h
    rw [findings_of_composition hshape, List.mem_cons, List.mem_append] at h
    rcases h with h | h | h
    · cases h
    · exact absurd h not_mem_unionFindings
    · exact Schema.memberTargets_subset hshape (ih hint 0 h)
  case untyped =>
    intro schema hshape htypes hint h
    rw [findings_of_untyped hshape htypes] at h
    simp at h
  case typed =>
    intro schema hshape htypes ihProperties ihItems hint h
    rw [findings_of_types hshape htypes, List.mem_cons, List.mem_append] at h
    rcases h with h | h | h
    · cases h
    · exact absurd h not_mem_ownEnumerations
    · rcases mem_facetFindings h with h | h
      · exact Schema.propertyTargets_subset (ihProperties hint h)
      · exact Schema.itemTargets_subset (ihItems hint h)
  case noMembers =>
    intro hint index h
    cases h
  case nextMember =>
    intro member rest ihFirst ihRest hint index h
    rw [memberFindings, List.mem_append] at h
    rw [memberTargets, List.mem_append]
    exact h.imp (ihFirst _) (ihRest _ _)
  case noProperties =>
    intro hint h
    cases h
  case nextProperty =>
    intro name node rest ihFirst ihRest hint h
    rw [propertyFindings, List.mem_append] at h
    rw [propertyTargets, List.mem_append]
    exact h.imp (ihFirst _) (ihRest _)
  case noItems =>
    intro hint h
    simp [itemFindings] at h
  case anyItems =>
    intro allowed hint h
    simp [itemFindings] at h
  case items => exact fun _ ih hint h => ih _ h

/-! ## Unions that are met -/

/-- The references among the members of a union are met with it. -/
def CoversUnions (findings : List Finding) : Prop :=
  ∀ members target, .union members ∈ findings → OrReference.reference target ∈ members →
    .reference target ∈ findings

namespace CoversUnions

/-- Findings without unions. -/
theorem of_no_union {findings : List Finding} (h : ∀ members, .union members ∉ findings) :
    CoversUnions findings :=
  fun members _ hunion => absurd hunion (h members)

/-- Findings of two parts. -/
theorem append {first second : List Finding} (hfirst : CoversUnions first)
    (hsecond : CoversUnions second) : CoversUnions (first ++ second) := by
  intro members target hunion htarget
  rw [List.mem_append] at hunion ⊢
  exact hunion.imp (fun h => hfirst members target h htarget)
    fun h => hsecond members target h htarget

/-- The name of a facet, and further findings. -/
theorem facet {findings : List Finding} (h : CoversUnions findings) (name : ModelName) :
    CoversUnions (.facet name :: findings) := by
  have hfacet : CoversUnions [.facet name] := of_no_union (by simp)
  exact hfacet.append h

end CoversUnions

/-- A reference among members is met. -/
theorem mem_memberFindings {members : List Node} {target : String}
    (h : .reference target ∈ members) (hint : ModelName) (index : Nat) :
    .reference target ∈ memberFindings members hint index := by
  induction members generalizing index with
  | nil => cases h
  | cons member rest ih =>
    rw [memberFindings, List.mem_append]
    rcases List.mem_cons.1 h with rfl | h
    · exact .inl (by simp [Node.findings])
    · exact .inr (ih h (index + 1))

/-- **The references among the members of a union are met** wherever the union is.

**Proof sketch.** Induction on the parts. The members of a union are those of its schema. -/
theorem coversUnions_findings (schema : Schema) (hint : ModelName) :
    CoversUnions (schema.findings hint) := by
  refine (Schema.induction
    (fun node => ∀ hint, CoversUnions (node.findings hint))
    (fun schema => ∀ hint, CoversUnions (schema.findings hint))
    (fun members => ∀ hint index, CoversUnions (memberFindings members hint index))
    (fun properties => ∀ hint, CoversUnions (propertyFindings properties hint))
    (fun items => ∀ hint, CoversUnions (itemFindings items hint))
    ?reference ?inline ?composed ?untyped ?typed ?noMembers ?nextMember ?noProperties
    ?nextProperty ?noItems ?anyItems ?items).2.1 schema hint
  case reference =>
    intro target hint
    exact .of_no_union (by simp [Node.findings])
  case inline => exact fun schema ih hint => ih hint
  case composed =>
    intro schema kind members hshape ih hint
    rw [findings_of_composition hshape]
    refine .facet ?_ hint
    intro members' target hunion htarget
    rw [List.mem_append] at hunion ⊢
    rcases hunion with hunion | hunion
    · have he : members' = members := by
        cases kind <;> simp [unionFindings] at hunion
        exact hunion
      exact .inr (mem_memberFindings (he ▸ htarget) hint 0)
    · exact .inr (ih hint 0 members' target hunion htarget)
  case untyped =>
    intro schema hshape htypes hint
    rw [findings_of_untyped hshape htypes]
    exact .of_no_union (by simp)
  case typed =>
    intro schema hshape htypes ihProperties ihItems hint
    rw [findings_of_types hshape htypes]
    refine .facet (.append (.of_no_union (by simp [Schema.ownEnumerations])) ?_) hint
    unfold Schema.facetFindings
    split
    · exact .of_no_union (by simp)
    · split
      · exact ihProperties hint
      · split
        · exact ihItems hint
        · exact .of_no_union (by simp)
  case noMembers => exact fun _ _ => .of_no_union (by simp [memberFindings])
  case nextMember =>
    intro member rest ihFirst ihRest hint index
    rw [memberFindings]
    exact .append (ihFirst _) (ihRest _ _)
  case noProperties => exact fun _ => .of_no_union (by simp [propertyFindings])
  case nextProperty =>
    intro name node rest ihFirst ihRest hint
    rw [propertyFindings]
    exact .append (ihFirst _) (ihRest _)
  case noItems => exact fun _ => .of_no_union (by simp [itemFindings])
  case anyItems => exact fun _ _ => .of_no_union (by simp [itemFindings])
  case items => exact fun node ih hint => ih _

/-! ## Congruence -/

/-- **A translation depends only on the references that it meets.**

**Proof sketch.** Induction on the parts. Of the properties and the items of a schema only those
count whose findings are its own. -/
theorem translateSchema_congr {document : Document} {follow follow' : String → Resolution}
    {schema : Schema} {hint : ModelName} {nullable : Bool}
    (h : ∀ target, .reference target ∈ schema.findings hint → follow target = follow' target) :
    translateSchema document follow schema hint nullable =
      translateSchema document follow' schema hint nullable := by
  refine (Schema.induction
    (fun node => ∀ hint nullable,
      (∀ target, .reference target ∈ node.findings hint → follow target = follow' target) →
      translateNode document follow node hint nullable =
        translateNode document follow' node hint nullable)
    (fun schema => ∀ hint nullable,
      (∀ target, .reference target ∈ schema.findings hint → follow target = follow' target) →
      translateSchema document follow schema hint nullable =
        translateSchema document follow' schema hint nullable)
    (fun members => ∀ offered hint index,
      (∀ target, .reference target ∈ memberFindings members hint index →
        follow target = follow' target) →
      translateMembers document follow offered members hint index =
        translateMembers document follow' offered members hint index)
    (fun properties => ∀ hint,
      (∀ target, .reference target ∈ propertyFindings properties hint →
        follow target = follow' target) →
      translateProperties document follow properties hint =
        translateProperties document follow' properties hint)
    (fun items => ∀ hint,
      (∀ target, .reference target ∈ itemFindings items hint →
        follow target = follow' target) →
      translateItems document follow items hint = translateItems document follow' items hint)
    ?reference ?inline ?composed ?untyped ?typed ?noMembers ?nextMember ?noProperties
    ?nextProperty ?noItems ?anyItems ?items).2.1 schema hint nullable h
  case reference =>
    intro target hint nullable h
    rw [translateNode, translateNode, h target (by simp [Node.findings])]
  case inline =>
    intro schema ih hint nullable h
    rw [translateNode, translateNode, ih hint nullable h]
  case composed =>
    intro schema kind members hshape ih hint nullable h
    rw [translateSchema_of_composition hshape, translateSchema_of_composition hshape, ih]
    intro target ht
    refine h target ?_
    rw [findings_of_composition hshape]
    exact List.mem_cons_of_mem _ (List.mem_append.2 (.inr ht))
  case untyped =>
    intro schema hshape htypes hint nullable _
    rw [translateSchema_of_untyped hshape htypes, translateSchema_of_untyped hshape htypes]
  case typed =>
    intro schema hshape htypes ihProperties ihItems hint nullable h
    rw [translateSchema_of_types hshape htypes, translateSchema_of_types hshape htypes]
    have hfacet : ∀ target, .reference target ∈ schema.facetFindings hint →
        follow target = follow' target := by
      intro target ht
      refine h target ?_
      rw [findings_of_types hshape htypes]
      exact List.mem_cons_of_mem _ (List.mem_append.2 (.inr ht))
    unfold Schema.facetFindings at hfacet
    simp only [Translation.typed, Translation.facet]
    split
    · rfl
    · next htakes =>
      rw [if_neg htakes] at hfacet
      split
      · next hobject =>
        rw [if_pos hobject] at hfacet
        rw [ihProperties hint hfacet]
      · next hobject =>
        rw [if_neg hobject] at hfacet
        split
        · next harray =>
          rw [if_pos harray] at hfacet
          rw [ihItems hint hfacet]
        · rfl
  case noMembers => exact fun _ _ _ _ => rfl
  case nextMember =>
    intro member rest ihFirst ihRest offered hint index h
    simp only [memberFindings, List.mem_append] at h
    rw [translateMembers, translateMembers, ihFirst _ _ fun target ht => h target (.inl ht),
      ihRest _ _ _ fun target ht => h target (.inr ht)]
  case noProperties => exact fun _ _ => rfl
  case nextProperty =>
    intro name node rest ihFirst ihRest hint h
    simp only [propertyFindings, List.mem_append] at h
    rw [translateProperties, translateProperties,
      ihFirst _ _ fun target ht => h target (.inl ht),
      ihRest _ fun target ht => h target (.inr ht)]
  case noItems => exact fun _ _ => rfl
  case anyItems => exact fun _ _ _ => rfl
  case items =>
    intro node ih hint h
    rw [translateItems, translateItems, ih _ _ h]

/-! ## Success -/

/-- A finding does not stand in the way of success. -/
def Finding.Succeeds (follow : String → Resolution) : Finding → Prop
  | .facet _ => True
  | .reference target => (follow target).succeeded = true
  | .union _ => True
  | .fault => False

/-- Findings do not stand in the way of success. -/
def Clear (follow : String → Resolution) (findings : List Finding) : Prop :=
  ∀ finding ∈ findings, finding.Succeeds follow

section Success

variable {document : Document} {follow : String → Resolution}

/-- Findings of two parts are clear if those of either part are. -/
theorem clear_append {first second : List Finding} :
    Clear follow (first ++ second) ↔ Clear follow first ∧ Clear follow second :=
  List.forall_mem_append

/-- The names of enumerations are clear. -/
theorem clear_ownEnumerations (schema : Schema) (hint : ModelName) :
    Clear follow (schema.ownEnumerations hint) := by
  intro finding h
  obtain ⟨name, -, rfl⟩ := List.mem_map.1 h
  trivial

/-- A union is clear. -/
theorem clear_unionFindings (kind : CompositionKind) (members : List Node) :
    Clear follow (unionFindings kind members) := by
  intro finding h
  cases kind with
  | oneOf => cases h
  | allOf => cases h
  | anyOf =>
    obtain rfl := List.mem_singleton.1 h
    trivial

/-- **A translation succeeds exactly if its findings are clear.**

**Proof sketch.** Induction on the parts: members, properties and items succeed together exactly if
each of them does. -/
theorem succeeded_translateSchema_iff {schema : Schema} {hint : ModelName} {nullable : Bool} :
    (translateSchema document follow schema hint nullable).resolution.succeeded = true ↔
      Clear follow (schema.findings hint) := by
  refine (Schema.induction
    (fun node => ∀ hint nullable,
      (translateNode document follow node hint nullable).resolution.succeeded = true ↔
        Clear follow (node.findings hint))
    (fun schema => ∀ hint nullable,
      (translateSchema document follow schema hint nullable).resolution.succeeded = true ↔
        Clear follow (schema.findings hint))
    (fun members => ∀ offered hint index result,
      (Translation.gatherMembers result
        (translateMembers document follow offered members hint index)).succeeded = true ↔
        result.succeeded = true ∧ Clear follow (memberFindings members hint index))
    (fun properties => ∀ required hint result,
      (Translation.gatherProperties required result
        (translateProperties document follow properties hint)).succeeded = true ↔
        result.succeeded = true ∧ Clear follow (propertyFindings properties hint))
    (fun items => ∀ hint,
      (Translation.array hint (translateItems document follow items hint)).2 = true ↔
        Clear follow (itemFindings items hint))
    ?reference ?inline ?composed ?untyped ?typed ?noMembers ?nextMember ?noProperties
    ?nextProperty ?noItems ?anyItems ?items).2.1 schema hint nullable
  case reference =>
    intro target hint nullable
    simp [translateNode, Node.findings, Clear, Finding.Succeeds]
  case inline =>
    intro schema ih hint nullable
    rw [translateNode, Node.findings]
    exact ih hint nullable
  case composed =>
    intro schema kind members hshape ih hint nullable
    rw [translateSchema_of_composition hshape, findings_of_composition hshape]
    show (Translation.gatherMembers {} _).succeeded = true ↔ _
    rw [ih]
    simp only [Clear, List.forall_mem_cons, List.forall_mem_append]
    exact ⟨fun h => ⟨trivial, clear_unionFindings kind members, h.2⟩, fun h => ⟨trivial, h.2.2⟩⟩
  case untyped =>
    intro schema hshape htypes hint nullable
    rw [translateSchema_of_untyped hshape htypes, findings_of_untyped hshape htypes]
    simp [Translation.failed, Resolution.failed, Clear, Finding.Succeeds]
  case typed =>
    intro schema hshape htypes ihProperties ihItems hint nullable
    rw [translateSchema_of_types hshape htypes, findings_of_types hshape htypes]
    have hfacet : (Translation.typed schema hint nullable
        (translateProperties document follow schema.properties hint)
        (translateItems document follow schema.items hint)).resolution.succeeded = true ↔
        Clear follow (schema.facetFindings hint) := by
      simp only [Translation.typed, Translation.facet, Schema.facetFindings]
      split
      · simp [Clear]
      · split
        · rw [Translation.object, ihProperties]
          simp
        · split
          · exact ihItems hint
          · simp [Clear]
    rw [hfacet]
    simp only [Clear, List.forall_mem_cons, List.forall_mem_append]
    exact ⟨fun h => ⟨trivial, clear_ownEnumerations schema hint, h⟩, fun h => h.2.2⟩
  case noMembers =>
    intro offered hint index result
    simp [translateMembers, Translation.gatherMembers, memberFindings, Clear]
  case nextMember =>
    intro member rest ihFirst ihRest offered hint index result
    rw [translateMembers, memberFindings, clear_append]
    show (Translation.gatherMembers (result.add _) _).succeeded = true ↔ _
    rw [ihRest, MemberResult.succeeded_add, Bool.and_eq_true, ihFirst, and_assoc]
  case noProperties =>
    intro required hint result
    simp [translateProperties, Translation.gatherProperties, propertyFindings, Clear]
  case nextProperty =>
    intro name node rest ihFirst ihRest required hint result
    rw [translateProperties, propertyFindings, clear_append]
    show (Translation.gatherProperties required (result.add required name _) _).succeeded = true ↔ _
    rw [ihRest, PropertyResult.succeeded_add, Bool.and_eq_true, ihFirst, and_assoc]
  case noItems =>
    intro hint
    simp [translateItems, Translation.array, itemFindings, Clear, Finding.Succeeds]
  case anyItems =>
    intro allowed hint
    simp [translateItems, Translation.array, itemFindings, Clear, Finding.Succeeds]
  case items =>
    intro node ih hint
    rw [translateItems, itemFindings, ← ih _ false, Translation.array]
    split <;> simp_all

/-- **The references of a translation** do not depend on what references denote. -/
theorem references_translateSchema {follow' : String → Resolution} (schema : Schema)
    (hint : ModelName) (nullable : Bool) :
    (translateSchema document follow schema hint nullable).resolution.references =
      (translateSchema document follow' schema hint nullable).resolution.references := by
  cases hshape : schema.composition? with
  | some composition =>
    obtain ⟨kind, members⟩ := composition
    rw [translateSchema_of_composition hshape, translateSchema_of_composition hshape]
    rfl
  | none =>
    cases htypes : schema.types.isEmpty with
    | true =>
      rw [translateSchema_of_untyped hshape htypes, translateSchema_of_untyped hshape htypes]
    | false =>
      rw [translateSchema_of_types hshape htypes, translateSchema_of_types hshape htypes]
      rfl

end Success

end ApiCatalog
