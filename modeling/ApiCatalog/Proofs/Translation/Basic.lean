import ApiCatalog.Proofs.Resolution.Parts

set_option autoImplicit false

/-!
# The translation of a schema

What a schema means by itself: the models for it and for its parts, given what references denote.
The translation is a plain recursion on the schema. It has no state, so that it does not ask whether
a name is taken, whether a component was translated before, or where it was begun.

Of the models that a schema with types may call for under its own name there is only the first, in
the order enumeration, object, array: the name stands for one model.

## Main definitions

* `ApiCatalog.Translation`: the models for a schema, and what it denotes.
* `ApiCatalog.translateNode`, `ApiCatalog.translateSchema`: the translation.
* `ApiCatalog.Finding`: what a translation meets on its way.
* `Node.findings`, `Schema.findings`: the findings, which do not depend on what references denote.

## Main results

* `ApiCatalog.translateSchema_of_composition`, `ApiCatalog.translateSchema_of_untyped`,
  `ApiCatalog.translateSchema_of_types`: the translation of a schema by its shape.
* `ApiCatalog.findings_of_composition`, `ApiCatalog.findings_of_untyped`,
  `ApiCatalog.findings_of_types`: what it meets, by its shape.
-/

namespace ApiCatalog

/-- What a schema is translated to: the models for it and for its parts, and what it denotes. -/
structure Translation where
  models : List Model
  resolution : Resolution

namespace Translation

/-- What cannot be translated. -/
def failed : Translation :=
  ⟨[], .failed⟩

/-- The members translated, after others. -/
def gatherMembers (result : MemberResult) (members : List Translation) : MemberResult :=
  members.foldl (fun result member => result.add member.resolution) result

/-- The properties translated, after others. -/
def gatherProperties (required : List String) (result : PropertyResult)
    (properties : List (String × Translation)) : PropertyResult :=
  properties.foldl
    (fun result property => result.add required property.1 property.2.resolution) result

/-- A composition of translated members. -/
def composition (kind : CompositionKind) (hint : ModelName) (members : List Translation) :
    Translation :=
  let result := gatherMembers {} members
  ⟨members.flatMap models ++ [.composition hint kind result.references],
    .single hint result.succeeded⟩

/-- The models of an object with translated properties, and whether all went well. -/
def object (required : List String) (hint : ModelName) (properties : List (String × Translation)) :
    List Model × Bool :=
  let result := gatherProperties required {} properties
  (properties.flatMap (fun property => property.2.models) ++ [.object hint result.properties],
    result.succeeded)

/-- The models of an array with translated items, and whether all went well. -/
def array (hint : ModelName) : Option Translation → List Model × Bool
  | none => ([], false)
  | some items =>
    if items.resolution.succeeded then
      (items.models ++ [.array hint items.resolution.references], true)
    else (items.models, false)

end Translation

/-- The enumeration of a schema has the name of the schema itself. -/
def Schema.takesHint (schema : Schema) (hint : ModelName) : Bool :=
  ((schema.enumerations hint).map Model.name).contains hint

/-- The models for the object or the array of a schema, if one of them is called for and the name is
not that of its enumeration. -/
def Translation.facet (schema : Schema) (hint : ModelName)
    (properties : List (String × Translation)) (items : Option Translation) : List Model × Bool :=
  if schema.takesHint hint then ([], true)
  else if schema.types.contains .object then Translation.object schema.required hint properties
  else if schema.types.contains .array then Translation.array hint items
  else ([], true)

/-- A schema with types whose properties and items are translated. -/
def Translation.typed (schema : Schema) (hint : ModelName) (nullable : Bool)
    (properties : List (String × Translation)) (items : Option Translation) : Translation :=
  let facet := Translation.facet schema hint properties items
  ⟨schema.flatModels hint nullable ++ facet.1, ⟨schema.references hint nullable, facet.2⟩⟩

/-- Whether some member of a union admits null, as far as that can be told. -/
def unionAdmitsNull (document : Document) (members : List Node) : Bool :=
  match anyAdmitsNull document members with
  | .ok found => found
  | .error _ => false

section Translate

variable (document : Document) (follow : String → Resolution)

mutual

/-- The translation of a node under a hint. A reference denotes what it is said to. -/
def translateNode : Node → ModelName → Bool → Translation
  | .reference target, _, _ => ⟨[], follow target⟩
  | .inline schema, hint, nullable => translateSchema schema hint nullable

/-- The translation of a schema under a hint. -/
def translateSchema : Schema → ModelName → Bool → Translation
  | { types, oneOf, allOf, anyOf, literals, properties, required, items }, hint, nullable =>
    if !oneOf.isEmpty then .composition .oneOf hint (translateMembers false oneOf hint 0)
    else if !allOf.isEmpty then .composition .allOf hint (translateMembers false allOf hint 0)
    else if !anyOf.isEmpty then
      .composition .anyOf hint (translateMembers (unionAdmitsNull document anyOf) anyOf hint 0)
    else if types.isEmpty then .failed
    else
      .typed { types, oneOf, allOf, anyOf, literals, properties, required, items } hint nullable
        (translateProperties properties hint) (translateItems items hint)

/-- The translations of members from number `index` on. In a union with null, a member that names
one other type gains null. -/
def translateMembers (nullableUnion : Bool) :
    List Node → ModelName → Nat → List Translation
  | [], _, _ => []
  | member :: rest, hint, index =>
    translateNode member (Naming.member hint index) (nullableUnion && member.isSingleNonNull) ::
      translateMembers nullableUnion rest hint (index + 1)

/-- The translations of properties. -/
def translateProperties : List (String × Node) → ModelName → List (String × Translation)
  | [], _ => []
  | (name, node) :: rest, hint =>
    (name, translateNode node (Naming.property hint name) false) :: translateProperties rest hint

/-- The translation of items, if they are described. -/
def translateItems : Option (Items Node) → ModelName → Option Translation
  | none, _ => none
  | some (.always _), _ => none
  | some (.each node), hint => some (translateNode node (Naming.arrayItem hint) false)

end

end Translate

/-! ## Findings -/

/-- What the translation of a schema meets. -/
inductive Finding where
  /-- A place whose name a model may have. -/
  | facet (name : ModelName)
  /-- A reference. -/
  | reference (target : String)
  /-- A union, one member of which may admit null. -/
  | union (members : List Node)
  /-- A place where nothing can be translated. -/
  | fault

/-- The names that models may have. -/
def Finding.name? : Finding → Option ModelName
  | .facet name => some name
  | .reference _ => none
  | .union _ => none
  | .fault => none

/-- The names among findings. -/
def namesIn (findings : List Finding) : List ModelName :=
  findings.filterMap Finding.name?

/-- The name of an enumeration that is not that of the schema. -/
def Schema.ownEnumerations (schema : Schema) (hint : ModelName) : List Finding :=
  (((schema.enumerations hint).map Model.name).filter (· ≠ hint)).map .facet

mutual

/-- What the translation of a node meets. -/
def Node.findings : Node → ModelName → List Finding
  | .reference target, _ => [.reference target]
  | .inline schema, hint => schema.findings hint

/-- What the translation of a schema meets. -/
def Schema.findings : Schema → ModelName → List Finding
  | { types, oneOf, allOf, anyOf, literals, properties, required, items }, hint =>
    .facet hint ::
      if !oneOf.isEmpty then memberFindings oneOf hint 0
      else if !allOf.isEmpty then memberFindings allOf hint 0
      else if !anyOf.isEmpty then .union anyOf :: memberFindings anyOf hint 0
      else if types.isEmpty then [.fault]
      else
        let schema : Schema :=
          { types, oneOf, allOf, anyOf, literals, properties, required, items }
        schema.ownEnumerations hint ++
          if schema.takesHint hint then []
          else if types.contains .object then propertyFindings properties hint
          else if types.contains .array then itemFindings items hint
          else []

/-- What the translation of members meets. -/
def memberFindings : List Node → ModelName → Nat → List Finding
  | [], _, _ => []
  | member :: rest, hint, index =>
    member.findings (Naming.member hint index) ++ memberFindings rest hint (index + 1)

/-- What the translation of properties meets. -/
def propertyFindings : List (String × Node) → ModelName → List Finding
  | [], _ => []
  | (name, node) :: rest, hint =>
    node.findings (Naming.property hint name) ++ propertyFindings rest hint

/-- What the translation of items meets. -/
def itemFindings : Option (Items Node) → ModelName → List Finding
  | none, _ => [.fault]
  | some (.always _), _ => [.fault]
  | some (.each node), hint => node.findings (Naming.arrayItem hint)

end

/-- The union that a composition is, if it is one. -/
def unionFindings (kind : CompositionKind) (members : List Node) : List Finding :=
  match kind with
  | .anyOf => [.union members]
  | .oneOf => []
  | .allOf => []

/-- Whether a composition offers its members null, as far as that can be told. -/
def offers (document : Document) (kind : CompositionKind) (members : List Node) : Bool :=
  match offersNull document kind members with
  | .ok offered => offered
  | .error _ => false

/-! ## The shape of a schema -/

section Shape

variable {document : Document} {follow : String → Resolution} {schema : Schema}

/-- A schema with a combinator is translated by the members of that. -/
theorem translateSchema_of_composition {kind : CompositionKind} {members : List Node}
    (h : schema.composition? = some (kind, members)) (hint : ModelName) (nullable : Bool) :
    translateSchema document follow schema hint nullable =
      .composition kind hint
        (translateMembers document follow (offers document kind members) members hint 0) := by
  obtain ⟨types, oneOf, allOf, anyOf, literals, properties, required, items⟩ := schema
  rw [translateSchema]
  rcases Schema.composition?_cases h with
    ⟨ho, rfl, rfl⟩ | ⟨ho, ha, rfl, rfl⟩ | ⟨ho, ha, hn, rfl, rfl⟩
  · rw [if_pos (by simpa using ho)]
    rfl
  · rw [if_neg (by simpa using ho), if_pos (by simpa using ha)]
    rfl
  · rw [if_neg (by simpa using ho), if_neg (by simpa using ha), if_pos (by simpa using hn)]
    rfl

/-- What the translation of a schema with a combinator meets. -/
theorem findings_of_composition {kind : CompositionKind} {members : List Node}
    (h : schema.composition? = some (kind, members)) (hint : ModelName) :
    schema.findings hint =
      .facet hint :: (unionFindings kind members ++ memberFindings members hint 0) := by
  obtain ⟨types, oneOf, allOf, anyOf, literals, properties, required, items⟩ := schema
  rw [Schema.findings]
  rcases Schema.composition?_cases h with
    ⟨ho, rfl, rfl⟩ | ⟨ho, ha, rfl, rfl⟩ | ⟨ho, ha, hn, rfl, rfl⟩
  · rw [if_pos (by simpa using ho)]
    rfl
  · rw [if_neg (by simpa using ho), if_pos (by simpa using ha)]
    rfl
  · rw [if_neg (by simpa using ho), if_neg (by simpa using ha), if_pos (by simpa using hn)]
    rfl

/-- A schema that says nothing is not translated. -/
theorem translateSchema_of_untyped (h : schema.composition? = none)
    (ht : schema.types.isEmpty = true) (hint : ModelName) (nullable : Bool) :
    translateSchema document follow schema hint nullable = .failed := by
  obtain ⟨ho, ha, hn⟩ := Schema.isEmpty_of_composition?_eq_none h
  obtain ⟨types, oneOf, allOf, anyOf, literals, properties, required, items⟩ := schema
  simp only at ho ha hn ht
  rw [translateSchema]
  simp [ho, ha, hn, ht]

/-- What the translation of a schema that says nothing meets. -/
theorem findings_of_untyped (h : schema.composition? = none) (ht : schema.types.isEmpty = true)
    (hint : ModelName) : schema.findings hint = [.facet hint, .fault] := by
  obtain ⟨ho, ha, hn⟩ := Schema.isEmpty_of_composition?_eq_none h
  obtain ⟨types, oneOf, allOf, anyOf, literals, properties, required, items⟩ := schema
  simp only at ho ha hn ht
  rw [Schema.findings]
  simp [ho, ha, hn, ht]

/-- A schema without combinator is translated by its types. -/
theorem translateSchema_of_types (h : schema.composition? = none)
    (ht : schema.types.isEmpty = false) (hint : ModelName) (nullable : Bool) :
    translateSchema document follow schema hint nullable =
      .typed schema hint nullable (translateProperties document follow schema.properties hint)
        (translateItems document follow schema.items hint) := by
  obtain ⟨ho, ha, hn⟩ := Schema.isEmpty_of_composition?_eq_none h
  obtain ⟨types, oneOf, allOf, anyOf, literals, properties, required, items⟩ := schema
  simp only at ho ha hn ht
  rw [translateSchema]
  simp [ho, ha, hn, ht]

/-- What the translation of the object or the array of a schema meets. -/
def Schema.facetFindings (schema : Schema) (hint : ModelName) : List Finding :=
  if schema.takesHint hint then []
  else if schema.types.contains .object then propertyFindings schema.properties hint
  else if schema.types.contains .array then itemFindings schema.items hint
  else []

/-- What the translation of a schema with types meets. -/
theorem findings_of_types (h : schema.composition? = none) (ht : schema.types.isEmpty = false)
    (hint : ModelName) :
    schema.findings hint =
      .facet hint :: (schema.ownEnumerations hint ++ schema.facetFindings hint) := by
  obtain ⟨ho, ha, hn⟩ := Schema.isEmpty_of_composition?_eq_none h
  obtain ⟨types, oneOf, allOf, anyOf, literals, properties, required, items⟩ := schema
  simp only at ho ha hn ht
  rw [Schema.findings]
  simp [ho, ha, hn, ht, Schema.facetFindings]

end Shape

end ApiCatalog
