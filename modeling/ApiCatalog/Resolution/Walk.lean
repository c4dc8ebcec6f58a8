import ApiCatalog.Document.Lookup
import ApiCatalog.Model.Naming
import ApiCatalog.Resolution.State

set_option autoImplicit false

/-!
# Resolving schemas

A node is resolved under a hint, the name that models for its parts are derived from. Named parts
are registered at first sight and shared by name afterwards; primitive types go to their common
models. The walk below descends into a schema; what to do at a reference is left open.

## Main definitions

* `ApiCatalog.Context`: the document, and the registration that cancels the extraction.
* `ApiCatalog.FollowReference`: what is done at a reference met under a hint.
* `ApiCatalog.resolveNode`, `ApiCatalog.resolveSchema`: the walk.
-/

namespace ApiCatalog

/-- What a resolution depends on throughout. -/
structure Context where
  document : Document
  /-- The number of models at whose registration the extraction is cancelled. -/
  cancelAt : Option Nat := none

/-- What is done at a reference to a target, met under a hint. -/
abbrev FollowReference := String → ModelName → Resolver Resolution

/-- The references of the members resolved so far, and whether all of them succeeded. -/
structure MemberResult where
  references : List ModelName := []
  succeeded : Bool := true
deriving DecidableEq, Repr

/-- Takes up the resolution of one more member; failed members are left out. -/
def MemberResult.add (result : MemberResult) (resolution : Resolution) : MemberResult :=
  if resolution.succeeded then
    { result with references := result.references ++ resolution.references }
  else { result with succeeded := false }

/-- The properties resolved so far, and whether all of them succeeded. -/
structure PropertyResult where
  properties : OrderedMap String Property := ∅
  succeeded : Bool := true
deriving DecidableEq

/-- Takes up the resolution of one more property; failed properties are left out. -/
def PropertyResult.add (result : PropertyResult) (required : List String) (name : String)
    (resolution : Resolution) : PropertyResult :=
  if resolution.succeeded then
    let property : Property :=
      ⟨name, resolution.references, .ofRequired (required.contains name)⟩
    { result with properties := result.properties.insert name property }
  else { result with succeeded := false }

/-! ## Null in unions -/

/-- Whether null is among the types of a union's member, which may be a reference. -/
def admitsNull (document : Document) (member : Node) : Except Abort Bool :=
  match document.schema member with
  | .error abort => .error abort
  | .ok (.error _) => .ok false
  | .ok (.ok schema) => .ok (schema.types.contains .null)

/-- Whether null is among the types of some member of a union. Members after the first one found
are not looked at. -/
def anyAdmitsNull (document : Document) : List Node → Except Abort Bool
  | [] => .ok false
  | member :: rest =>
    match admitsNull document member with
    | .error abort => .error abort
    | .ok true => .ok true
    | .ok false => anyAdmitsNull document rest

/-! ## Types -/

/-- The schema type of a primitive kind. -/
def PrimitiveKind.schemaType : PrimitiveKind → SchemaType
  | .string => .string
  | .integer => .integer
  | .number => .number
  | .boolean => .boolean
  | .null => .null

/-- The primitive kinds among the types of a schema. -/
def TypeSet.primitives (types : TypeSet) : List PrimitiveKind :=
  PrimitiveKind.all.filter fun kind => types.contains kind.schemaType

/-- Registers the models of primitive kinds. -/
def registerPrimitives (context : Context) : List PrimitiveKind → Resolver Unit
  | [] => pure ()
  | kind :: rest => do
    Resolver.register context.cancelAt (.primitive kind)
    registerPrimitives context rest

/-- The texts among the literals of an enumeration. -/
def EnumLiteral.texts (literals : List EnumLiteral) : List String :=
  literals.filterMap fun
    | .text value => some value
    | _ => none

/-- The enumeration that the literals of a schema make up. -/
def enumerationModel (hint : ModelName) (literals : List EnumLiteral) : Model :=
  let nullable := literals.contains .null
  .enumeration (Naming.enumeration hint nullable) (EnumLiteral.texts literals) nullable

/-- Registers the enumeration of a schema that has literals and admits strings; gives the
references to it. -/
def registerEnumeration (context : Context) (types : TypeSet) (literals : List EnumLiteral)
    (hint : ModelName) : Resolver (List ModelName) :=
  if types.contains .string && !literals.isEmpty then do
    let model := enumerationModel hint literals
    Resolver.register context.cancelAt model
    return [model.name]
  else return []

/-- Registers a composition whose members are resolved. Nothing is registered if the extraction
was cancelled before one of them. -/
def registerComposition (context : Context) (kind : CompositionKind) (hint : ModelName) :
    Option MemberResult → Resolver Resolution
  | none => return .single hint false
  | some result => do
    Resolver.register context.cancelAt (.composition hint kind result.references)
    return .single hint result.succeeded

/-- Registers an object whose properties are resolved, unless the extraction was cancelled. -/
def registerObject (context : Context) (hint : ModelName) (result : PropertyResult) :
    Resolver Bool := do
  if ← Resolver.isCancelled then return false
  else
    Resolver.register context.cancelAt (.object hint result.properties)
    return result.succeeded

/-- Registers an array whose items are resolved. -/
def registerArray (context : Context) (hint : ModelName) (items : Resolution) : Resolver Bool :=
  if items.succeeded then do
    Resolver.register context.cancelAt (.array hint items.references)
    return true
  else return false

/-- Takes a step that registers a model under a name. There is nothing to do, and all is well, if no
model is called for or the name is known already. -/
def registerOnce (called : Bool) (name : ModelName) (step : Resolver Bool) : Resolver Bool :=
  if called then do
    if ← Resolver.isKnown name then return true
    else step
  else return true

/-- The references to the models of a schema's types, `enumeration` being those to the model of its
literals. -/
def typeReferences (types : TypeSet) (enumeration : List ModelName) (hint : ModelName) :
    List ModelName :=
  types.primitives.map PrimitiveKind.canonicalName ++ enumeration ++
    (if types.contains .object then [hint] else []) ++
    (if types.contains .array then [hint] else [])

/-! ## The walk -/

variable (context : Context) (follow : FollowReference)

mutual

/-- Resolves a node. `nullable` adds null to the types of a schema that is written in place. -/
def resolveNode : Node → ModelName → Bool → Resolver Resolution
  | .reference target, hint, _ => Resolver.unlessCancelled (follow target hint)
  | .inline schema, hint, nullable => Resolver.unlessCancelled (resolveSchema schema hint nullable)

/-- Resolves a schema: by the first of its lists of parts that is not empty, or else by its
types. -/
def resolveSchema : Schema → ModelName → Bool → Resolver Resolution
  | { types, oneOf, allOf, anyOf, literals, properties, required, items }, hint, nullable =>
    if !oneOf.isEmpty then do
      let members ← resolveMembers false oneOf hint 0 {}
      registerComposition context .oneOf hint members
    else if !allOf.isEmpty then do
      let members ← resolveMembers false allOf hint 0 {}
      registerComposition context .allOf hint members
    else if !anyOf.isEmpty then do
      let nullableUnion ← Resolver.ofExcept (anyAdmitsNull context.document anyOf)
      let members ← resolveMembers nullableUnion anyOf hint 0 {}
      registerComposition context .anyOf hint members
    else if types.isEmpty then do
      Resolver.record (.missingType hint)
      return .failed
    else do
      let types := if nullable then types.insert .null else types
      registerPrimitives context types.primitives
      let enumeration ← registerEnumeration context types literals hint
      let objectDone ← registerOnce (types.contains .object) hint do
        let result ← resolveProperties required properties hint {}
        registerObject context hint result
      let arrayDone ← registerOnce (types.contains .array) hint (resolveItems items hint)
      return ⟨typeReferences types enumeration hint, objectDone && arrayDone⟩

/-- Resolves the members of a composition from number `index` on, or gives up if the extraction is
cancelled before one of them. In a union with null, a member that names one other type gains
null. -/
def resolveMembers (nullableUnion : Bool) :
    List Node → ModelName → Nat → MemberResult → Resolver (Option MemberResult)
  | [], _, _, result => return some result
  | member :: rest, hint, index, result => do
    if ← Resolver.isCancelled then return none
    else
      let resolution ← resolveNode member (Naming.member hint index)
        (nullableUnion && member.isSingleNonNull)
      resolveMembers nullableUnion rest hint (index + 1) (result.add resolution)

/-- Resolves the properties of an object. -/
def resolveProperties (required : List String) :
    List (String × Node) → ModelName → PropertyResult → Resolver PropertyResult
  | [], _, result => return result
  | (name, node) :: rest, hint, result => do
    let resolution ← resolveNode node (Naming.property hint name) false
    resolveProperties required rest hint (result.add required name resolution)

/-- Resolves the items of an array and registers it. -/
def resolveItems : Option (Items Node) → ModelName → Resolver Bool
  | none, hint => do
    Resolver.record (.missingArrayItems hint)
    return false
  | some (.always _), hint => do
    Resolver.record (.booleanSchema (Naming.arrayItem hint))
    return false
  | some (.each node), hint => do
    let resolution ← resolveNode node (Naming.arrayItem hint) false
    registerArray context hint resolution

end

end ApiCatalog
