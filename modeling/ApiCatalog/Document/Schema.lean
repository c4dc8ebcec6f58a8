set_option autoImplicit false

/-!
# Schemas

The schemas of a document as far as models depend on them.

## Main definitions

* `ApiCatalog.OrReference`: something that is written in place or referred to.
* `ApiCatalog.SchemaType`, `ApiCatalog.TypeSet`: the types a schema names.
* `ApiCatalog.Schema`, `ApiCatalog.Node`: a schema, and a place where a schema is expected.

## Main results

* `TypeSet.contains_insert`, `TypeSet.contains_ofList`: a type set as a set.
-/

namespace ApiCatalog

/-- Something that is either written in place or referred to. -/
inductive OrReference (α : Type) where
  | reference (target : String)
  | inline (value : α)

namespace OrReference

variable {α : Type}

/-- The target of a reference. -/
def target? : OrReference α → Option String
  | .reference target => some target
  | .inline _ => none

end OrReference

/-- A type that a schema may name. -/
inductive SchemaType where
  | string
  | integer
  | number
  | boolean
  | null
  | object
  | array
deriving DecidableEq, Repr

namespace SchemaType

/-- The types, in the order of their weights. -/
def all : List SchemaType :=
  [.string, .integer, .number, .boolean, .null, .object, .array]

/-- The word for a type. -/
def label : SchemaType → String
  | .string => "string"
  | .integer => "integer"
  | .number => "number"
  | .boolean => "boolean"
  | .null => "null"
  | .object => "object"
  | .array => "array"

/-- The type of a word. -/
def ofLabel? (text : String) : Option SchemaType :=
  all.find? fun type => type.label = text

/-- The weight of a type in the code of a type set. -/
def weight (type : SchemaType) : Nat :=
  1 <<< all.idxOf type

end SchemaType

/-- A set of schema types. -/
structure TypeSet where
  string : Bool := false
  integer : Bool := false
  number : Bool := false
  boolean : Bool := false
  null : Bool := false
  object : Bool := false
  array : Bool := false
deriving DecidableEq, Repr

namespace TypeSet

/-- The set without types. -/
def empty : TypeSet := {}

/-- Whether a type is in a set. -/
def contains (types : TypeSet) : SchemaType → Bool
  | .string => types.string
  | .integer => types.integer
  | .number => types.number
  | .boolean => types.boolean
  | .null => types.null
  | .object => types.object
  | .array => types.array

/-- A set with one more type. -/
def insert (types : TypeSet) : SchemaType → TypeSet
  | .string => { types with string := true }
  | .integer => { types with integer := true }
  | .number => { types with number := true }
  | .boolean => { types with boolean := true }
  | .null => { types with null := true }
  | .object => { types with object := true }
  | .array => { types with array := true }

/-- The set of the types in a list. -/
def ofList : List SchemaType → TypeSet
  | [] => empty
  | type :: rest => (ofList rest).insert type

/-- The types in a set, in the order of their weights. -/
def toList (types : TypeSet) : List SchemaType :=
  SchemaType.all.filter types.contains

/-- The number of types in a set. -/
def size (types : TypeSet) : Nat :=
  types.toList.length

/-- Whether a set has no types. -/
def isEmpty (types : TypeSet) : Bool :=
  types.toList.isEmpty

/-- The sum of the weights of the types in a set. -/
def code (types : TypeSet) : Nat :=
  types.toList.foldl (fun code type => code + type.weight) 0

/-- A set gains the type that is put into it, and no other. -/
@[simp]
theorem contains_insert (types : TypeSet) (a b : SchemaType) :
    (types.insert a).contains b = (decide (a = b) || types.contains b) := by
  cases a <;> cases b <;> simp [insert, contains]

/-- The set of the types in a list contains exactly those. -/
theorem contains_ofList (list : List SchemaType) (type : SchemaType) :
    (ofList list).contains type = decide (type ∈ list) := by
  induction list with
  | nil => cases type <;> rfl
  | cons head rest ih =>
    rw [ofList, contains_insert, ih]
    by_cases h : head = type
    · simp [h]
    · have h' : ¬ type = head := fun e => h e.symm
      simp [h, h']

end TypeSet

/-- A literal of an enumeration, as far as models depend on it. -/
inductive EnumLiteral where
  | null
  | text (text : String)
  | other
deriving DecidableEq, Repr

/-- What the items of an array are: anything or nothing, or the instances of a schema. -/
inductive Items (α : Type) where
  | always (allowed : Bool)
  | each (schema : α)

/-- A schema that is written in place. -/
structure Schema where
  types : TypeSet := {}
  oneOf : List (OrReference Schema) := []
  allOf : List (OrReference Schema) := []
  anyOf : List (OrReference Schema) := []
  literals : List EnumLiteral := []
  properties : List (String × OrReference Schema) := []
  required : List String := []
  items : Option (Items (OrReference Schema)) := none

/-- A place where a schema is expected. -/
abbrev Node := OrReference Schema

/-- Whether a node is written in place and names exactly one type, which is not null. -/
def Node.isSingleNonNull : Node → Bool
  | .reference _ => false
  | .inline schema => schema.types.size = 1 && !schema.types.contains .null

end ApiCatalog
