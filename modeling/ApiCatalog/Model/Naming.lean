import ApiCatalog.Http.Endpoint

set_option autoImplicit false

/-!
# Names of schemas

A component schema goes by its own id wherever it is referred to. A schema that is written inline
takes its name from the hint of the schema around it, or from its place in an endpoint.

## Main definitions

* `Naming.property`, `Naming.member`, `Naming.arrayItem`, `Naming.enumeration`: the parts of a
  schema.
* `Naming.component`: the schemas of the components.
* `Naming.pathParameter`, `Naming.requestBody`, `Naming.response`: the schemas of an endpoint.
-/

namespace ApiCatalog.Naming

/-- The name of a parameter's schema. -/
def pathParameter (path parameter : String) : ModelName :=
  path ++ "/." ++ parameter

/-- The name of an enumeration; one that admits null is marked. -/
def enumeration (hint : ModelName) (nullable : Bool) : ModelName :=
  if nullable then hint ++ "?" else hint

/-- The name of a component schema, the same wherever it is referred to. -/
def component (id : String) : ModelName :=
  id

/-- The name of a property's schema. -/
def property (hint : ModelName) (name : String) : ModelName :=
  hint ++ "." ++ name

/-- The name of a member of a composition. All three kinds share the mark, since a schema is
resolved through at most one of them. -/
def member (hint : ModelName) (index : Nat) : ModelName :=
  hint ++ "#" ++ toString index

/-- The name of an array's item schema. -/
def arrayItem (hint : ModelName) : ModelName :=
  hint ++ "[]"

/-- The name of a request body's schema. -/
def requestBody (path : String) (method : HttpMethod) (mediaType : String) : ModelName :=
  path ++ "/" ++ method.name ++ "/request/" ++ mediaType

/-- The name of a response's schema. -/
def response (path : String) (method : HttpMethod) (status : StatusKey) (mediaType : String) :
    ModelName :=
  path ++ "/" ++ method.name ++ "/" ++ status.text ++ "/" ++ mediaType

end ApiCatalog.Naming
