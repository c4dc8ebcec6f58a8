import ApiCatalog.Proofs.Resolution.Growth

set_option autoImplicit false

/-!
# The parts of a schema

What the stages of the walk have in common: the references of members, properties and items are
followed and gathered. What holds of the references of the parts of a stage holds of those that it
answers with.

## Main definitions

* `Stage.targets`: the targets of the references that a stage may meet.
* `Stage.Gathered`, `Stage.Answers`: what has been gathered before a stage, and what it answers
  with, refers only to certain names.

## Main results

* `Schema.memberTargets_subset`: the members that a schema is resolved by are among its parts.
* `ApiCatalog.answers_typed`: what a schema with types refers to.
-/

namespace ApiCatalog

/-! ## Gathering -/

/-- A member that failed makes the others fail. -/
theorem MemberResult.succeeded_add (result : MemberResult) (resolution : Resolution) :
    (result.add resolution).succeeded = (result.succeeded && resolution.succeeded) := by
  unfold MemberResult.add
  cases hs : resolution.succeeded <;> simp

/-- A property that failed makes the others fail. -/
theorem PropertyResult.succeeded_add (result : PropertyResult) (required : List String)
    (name : String) (resolution : Resolution) :
    (result.add required name resolution).succeeded =
      (result.succeeded && resolution.succeeded) := by
  unfold PropertyResult.add
  cases hs : resolution.succeeded <;> simp

/-! ## Targets -/

/-- The targets of the references that a stage may meet. -/
def Stage.targets {kind : StageKind} : Stage kind → List String
  | .atNode node _ _ => node.targets
  | .atSchema schema _ _ => schema.targets
  | .atMembers _ members _ _ _ => memberTargets members
  | .atProperties _ properties _ _ => propertyTargets properties
  | .atObject schema _ => propertyTargets schema.properties
  | .atArray schema _ => itemTargets schema.items

namespace Schema

variable {schema : Schema}

/-- The members that a schema is resolved by are among its parts. -/
theorem memberTargets_subset {kind : CompositionKind} {members : List Node}
    (h : schema.composition? = some (kind, members)) :
    memberTargets members ⊆ schema.targets := by
  obtain ⟨types, oneOf, allOf, anyOf, literals, properties, required, items⟩ := schema
  intro target ht
  simp only [targets, List.mem_append]
  rcases composition?_cases h with ⟨-, -, rfl⟩ | ⟨-, -, -, rfl⟩ | ⟨-, -, -, -, rfl⟩
  · exact .inl (.inl (.inl (.inl ht)))
  · exact .inl (.inl (.inl (.inr ht)))
  · exact .inl (.inl (.inr ht))

/-- The properties of a schema are among its parts. -/
theorem propertyTargets_subset : propertyTargets schema.properties ⊆ schema.targets := by
  intro target ht
  obtain ⟨types, oneOf, allOf, anyOf, literals, properties, required, items⟩ := schema
  simp only [targets, List.mem_append]
  exact .inl (.inr ht)

/-- The items of a schema are among its parts. -/
theorem itemTargets_subset : itemTargets schema.items ⊆ schema.targets := by
  intro target ht
  obtain ⟨types, oneOf, allOf, anyOf, literals, properties, required, items⟩ := schema
  simp only [targets, List.mem_append]
  exact .inr ht

end Schema

/-! ## References -/

/-- A resolution that succeeded refers only to good names. -/
def Resolution.Refers (good : ModelName → Prop) (resolution : Resolution) : Prop :=
  resolution.succeeded = true → ∀ name ∈ resolution.references, good name

/-- The members gathered refer only to good names. -/
def MemberResult.Refers (good : ModelName → Prop) (result : MemberResult) : Prop :=
  ∀ name ∈ result.references, good name

/-- The properties gathered refer only to good names. -/
def PropertyResult.Refers (good : ModelName → Prop) (result : PropertyResult) : Prop :=
  ∀ property ∈ result.properties.values, ∀ name ∈ property.references, good name

/-- What has been gathered before a stage refers only to good names. -/
def Stage.Gathered (good : ModelName → Prop) {kind : StageKind} : Stage kind → Prop
  | .atNode _ _ _ => True
  | .atSchema _ _ _ => True
  | .atMembers _ _ _ _ result => result.Refers good
  | .atProperties _ _ _ result => result.Refers good
  | .atObject _ _ => True
  | .atArray _ _ => True

/-- What a stage answers with refers only to good names. -/
def Stage.Answers (good : ModelName → Prop) {kind : StageKind} :
    Stage kind → kind.Answer → Prop
  | .atNode _ _ _, resolution => resolution.Refers good
  | .atSchema _ _ _, resolution => resolution.Refers good
  | .atMembers _ _ _ _ _, result => ∀ members, result = some members → members.Refers good
  | .atProperties _ _ _ _, result => result.Refers good
  | .atObject schema hint, done =>
    done = true → schema.types.contains .object = true → good hint
  | .atArray schema hint, done =>
    done = true → schema.types.contains .array = true → good hint

section Refers

variable {good better : ModelName → Prop}

/-- A failure refers to nothing. -/
theorem Resolution.refers_failed : Resolution.failed.Refers good :=
  fun h => nomatch h

/-- Good names may become better. -/
theorem Resolution.Refers.mono {resolution : Resolution} (h : resolution.Refers good)
    (himp : ∀ name, good name → better name) : resolution.Refers better :=
  fun hs name hname => himp name (h hs name hname)

/-- Good names may become better. -/
theorem MemberResult.Refers.mono {result : MemberResult} (h : result.Refers good)
    (himp : ∀ name, good name → better name) : result.Refers better :=
  fun name hname => himp name (h name hname)

/-- Good names may become better. -/
theorem PropertyResult.Refers.mono {result : PropertyResult} (h : result.Refers good)
    (himp : ∀ name, good name → better name) : result.Refers better :=
  fun property hproperty name hname => himp name (h property hproperty name hname)

/-- One more member refers to good names if those before and the member do. -/
theorem MemberResult.Refers.add {result : MemberResult} {resolution : Resolution}
    (h : result.Refers good) (hr : resolution.Refers good) :
    (result.add resolution).Refers good := by
  intro name hname
  unfold MemberResult.add at hname
  split at hname
  · next hs =>
    rcases List.mem_append.1 hname with hname | hname
    · exact h name hname
    · exact hr hs name hname
  · exact h name hname

/-- One more property refers to good names if those before and the property do. -/
theorem PropertyResult.Refers.add {result : PropertyResult} {resolution : Resolution}
    (h : result.Refers good) (hr : resolution.Refers good) (required : List String)
    (name : String) : (result.add required name resolution).Refers good := by
  intro property hproperty
  unfold PropertyResult.add at hproperty
  split at hproperty
  · next hs =>
    rcases OrderedMap.mem_values_insert hproperty with rfl | hproperty
    · exact hr hs
    · exact h property hproperty
  · exact h property hproperty

/-- No property refers to anything. -/
theorem PropertyResult.refers_empty : ({} : PropertyResult).Refers good :=
  fun _ h => nomatch h

/-- No member refers to anything. -/
theorem MemberResult.refers_empty : ({} : MemberResult).Refers good :=
  fun _ h => nomatch h

/-- **What a schema with types refers to**: the models registered at once, and those of its object
and its array. -/
theorem answers_typed {schema : Schema} {hint : ModelName} {nullable objectDone arrayDone : Bool}
    (hflat : ∀ model ∈ schema.flatModels hint nullable, good model.name)
    (hobject : (Stage.atObject schema hint).Answers good objectDone)
    (harray : (Stage.atArray schema hint).Answers good arrayDone) :
    Resolution.Refers good ⟨schema.references hint nullable, objectDone && arrayDone⟩ := by
  intro hdone name hname
  obtain ⟨hobjectDone, harrayDone⟩ := Bool.and_eq_true_iff.1 hdone
  have htypes : ∀ type, type ≠ .null →
      (schema.typesIn nullable).contains type = schema.types.contains type := by
    intro type hne
    cases nullable <;> simp [Schema.typesIn, hne.symm]
  simp only [Schema.references, typeReferences, htypes .object (by decide),
    htypes .array (by decide), List.mem_append] at hname
  rcases hname with ((hname | hname) | hname) | hname
  · obtain ⟨kind, hkind, rfl⟩ := List.mem_map.1 hname
    exact hflat (.primitive kind)
      (List.mem_append.2 (.inl (List.mem_map.2 ⟨kind, hkind, rfl⟩)))
  · obtain ⟨model, hmodel, rfl⟩ := List.mem_map.1 hname
    exact hflat model (List.mem_append.2 (.inr hmodel))
  · split at hname
    · next hcalled =>
      obtain rfl := List.mem_singleton.1 hname
      exact hobject hobjectDone hcalled
    · cases hname
  · split at hname
    · next hcalled =>
      obtain rfl := List.mem_singleton.1 hname
      exact harray harrayDone hcalled
    · cases hname

end Refers

end ApiCatalog
