import ApiCatalog.Collections.SortedMap
import ApiCatalog.Document.Reference
import ApiCatalog.Http.Endpoint

set_option autoImplicit false

/-!
# Documents

A document as far as an extraction depends on it: its paths with their operations, and the
components that these refer to.

## Main definitions

* `ApiCatalog.Document`: title, version, paths and components.
* `PathItem.operations`, `PathItem.methods`: the operations of a path in the order in which they
  are taken up.
-/

namespace ApiCatalog

/-- What is said about one media type. -/
structure MediaType where
  schema : Option Node := none

/-- A parameter; its schema stands by itself or with a media type. -/
structure Parameter where
  name : String
  location : ParameterLocation
  required : Bool := false
  schema : Option Node := none
  content : Option (SortedMap MediaType) := none

namespace Parameter

/-- The schema of a parameter: its own, or the first one among its media types. -/
def schema? (parameter : Parameter) : Option Node :=
  match parameter.schema with
  | some schema => some schema
  | none => parameter.content.bind fun content => content.values.findSome? MediaType.schema

end Parameter

/-- A request body. -/
structure RequestBody where
  content : SortedMap MediaType

/-- A response. -/
structure Response where
  content : SortedMap MediaType := ∅

/-- An operation. -/
structure Operation where
  parameters : List (OrReference Parameter) := []
  requestBody : Option (OrReference RequestBody) := none
  responses : Option (SortedMap (OrReference Response)) := none

/-- What a document says about one path template. -/
structure PathItem where
  parameters : List (OrReference Parameter) := []
  get : Option Operation := none
  put : Option Operation := none
  post : Option Operation := none
  delete : Option Operation := none
  options : Option Operation := none
  head : Option Operation := none
  patch : Option Operation := none
  trace : Option Operation := none

namespace PathItem

/-- The operation of a method. -/
def operation? (item : PathItem) : HttpMethod → Option Operation
  | .get => item.get
  | .put => item.put
  | .post => item.post
  | .delete => item.delete
  | .options => item.options
  | .head => item.head
  | .patch => item.patch
  | .trace => item.trace

/-- The methods in the order in which operations are taken up; the last one is offered twice. -/
def offered : List HttpMethod :=
  HttpMethod.all ++ [.trace]

/-- The operations in the order in which they are taken up. -/
def operations (item : PathItem) : List (HttpMethod × Operation) :=
  offered.filterMap fun method => (item.operation? method).map fun operation => (method, operation)

/-- The operations with the names of their methods, as they are offered. -/
def methods (item : PathItem) : List (String × Operation) :=
  item.operations.map fun entry => (entry.1.name, entry.2)

end PathItem

/-- The components that paths and schemas refer to. -/
structure Components where
  schemas : SortedMap Node := ∅
  parameters : SortedMap (OrReference Parameter) := ∅
  requestBodies : SortedMap (OrReference RequestBody) := ∅
  responses : SortedMap (OrReference Response) := ∅

/-- A document. -/
structure Document where
  openapi : String
  title : String
  version : String
  paths : Option (SortedMap PathItem) := none
  components : Option Components := none

namespace Document

/-- The components, of which there are none if the document does not have that part. -/
def allComponents (document : Document) : Components :=
  document.components.getD {}

/-- The path templates with what is said about them, in order. -/
def pathEntries (document : Document) : List (String × PathItem) :=
  match document.paths with
  | none => []
  | some paths => paths.entries

/-- The component schemas. -/
def schemas (document : Document) : SortedMap Node :=
  document.allComponents.schemas

/-- The ids of the component schemas, in order. -/
def schemaIds (document : Document) : List String :=
  document.schemas.keys

end Document

end ApiCatalog
