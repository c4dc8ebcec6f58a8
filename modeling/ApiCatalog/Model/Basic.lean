import ApiCatalog.Collections.OrderedMap

set_option autoImplicit false

/-!
# Models

A model is a named type found in a document. Models refer to each other only by name.

## Main definitions

* `ApiCatalog.PrimitiveKind`: the types that have one shared model each, under a fixed name.
* `ApiCatalog.Model`: primitives, enumerations, objects, arrays and compositions.
* `Model.name`, `Model.kind`, `Model.references`: what a model is called, what it is, and which
  models it points at.
* `Model.same`: equality in which the order of properties does not count.
-/

namespace ApiCatalog

/-- The name under which a model is registered, and by which other models refer to it. -/
abbrev ModelName := String

/-- The types that have one model each, whatever the document. -/
inductive PrimitiveKind where
  | string
  | integer
  | number
  | boolean
  | null
deriving DecidableEq, Repr

namespace PrimitiveKind

/-- The primitive kinds in the order in which a schema's types are taken up. -/
def all : List PrimitiveKind :=
  [.string, .integer, .number, .boolean, .null]

/-- The word for a primitive kind. -/
def label : PrimitiveKind → String
  | .string => "string"
  | .integer => "integer"
  | .number => "number"
  | .boolean => "boolean"
  | .null => "null"

/-- The fixed name of the model of a primitive kind. -/
def canonicalName (kind : PrimitiveKind) : ModelName :=
  "#/primitive/" ++ kind.label

end PrimitiveKind

/-- The ways in which a schema is put together from others. -/
inductive CompositionKind where
  | oneOf
  | anyOf
  | allOf
deriving DecidableEq, Repr

/-- The keyword of a composition. -/
def CompositionKind.label : CompositionKind → String
  | .oneOf => "oneOf"
  | .anyOf => "anyOf"
  | .allOf => "allOf"

/-- Whether a property or parameter has to be present. -/
inductive Modifier where
  | required
  | optional
deriving DecidableEq, Repr

namespace Modifier

/-- The word for a modifier. -/
def label : Modifier → String
  | .required => "required"
  | .optional => "optional"

/-- The modifier of something that is, or is not, required. -/
def ofRequired (required : Bool) : Modifier :=
  if required then .required else .optional

end Modifier

/-- A property of an object: the models its value may belong to, and whether it has to be there. -/
structure Property where
  name : String
  references : List ModelName
  modifier : Modifier
deriving DecidableEq, Repr

/-- A named type. -/
inductive Model where
  /-- A primitive type, named canonically. -/
  | primitive (kind : PrimitiveKind)
  /-- A finite set of texts, and possibly null. -/
  | enumeration (name : ModelName) (values : List String) (nullable : Bool)
  /-- A record of properties. -/
  | object (name : ModelName) (properties : OrderedMap String Property)
  /-- A list; several item references are alternatives. -/
  | array (name : ModelName) (items : List ModelName)
  /-- A composition of other models. -/
  | composition (name : ModelName) (kind : CompositionKind) (members : List ModelName)
deriving DecidableEq

/-- What a model is, without its contents. -/
inductive ModelKind where
  | primitive
  | enumeration
  | object
  | array
  | composition
deriving DecidableEq, Repr

/-- The word for a kind of model. -/
def ModelKind.label : ModelKind → String
  | .primitive => "primitive"
  | .enumeration => "enum"
  | .object => "object"
  | .array => "array"
  | .composition => "composition"

namespace Model

/-- The name under which a model is registered. -/
def name : Model → ModelName
  | .primitive kind => kind.canonicalName
  | .enumeration name _ _ => name
  | .object name _ => name
  | .array name _ => name
  | .composition name _ _ => name

/-- What a model is. -/
def kind : Model → ModelKind
  | .primitive _ => .primitive
  | .enumeration _ _ _ => .enumeration
  | .object _ _ => .object
  | .array _ _ => .array
  | .composition _ _ _ => .composition

/-- The models that a model points at, in the order in which it declares them. -/
def references : Model → List ModelName
  | .primitive _ => []
  | .enumeration _ _ _ => []
  | .object _ properties => properties.values.flatMap Property.references
  | .array _ items => items
  | .composition _ _ members => members

/-- Equality of models in which the order of an object's properties does not count. -/
def same : Model → Model → Bool
  | .object name properties, .object name' properties' =>
    name = name' && properties.sameEntries properties'
  | a, b => a = b

end Model

end ApiCatalog
