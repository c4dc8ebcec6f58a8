import ApiCatalog.Http.Method
import ApiCatalog.Http.StatusKey
import ApiCatalog.Model.Basic

set_option autoImplicit false

/-!
# Endpoints

An endpoint is what a document declares for one method of one path: parameters, request bodies by
media type and responses by status key. Schemas appear as model names.

## Main definitions

* `ApiCatalog.Endpoint`: the declaration.
* `Endpoint.references`: the models it points at, in the order parameters, bodies, responses.
-/

namespace ApiCatalog

/-- Where a parameter is sent. -/
inductive ParameterLocation where
  | query
  | header
  | path
  | cookie
  | queryString
deriving DecidableEq, Repr

namespace ParameterLocation

/-- The locations in their usual order. -/
def all : List ParameterLocation :=
  [.query, .header, .path, .cookie, .queryString]

/-- The word for a location. -/
def label : ParameterLocation → String
  | .query => "query"
  | .header => "header"
  | .path => "path"
  | .cookie => "cookie"
  | .queryString => "queryString"

end ParameterLocation

/-- A parameter of an endpoint. -/
structure EndpointParameter where
  name : String
  schema : ModelName
  location : ParameterLocation
  modifier : Modifier
deriving DecidableEq, Repr

/-- A response of an endpoint, with one schema for each media type. -/
structure EndpointResponse where
  status : StatusKey
  schemas : OrderedMap String ModelName
deriving DecidableEq

/-- What is declared for one method of one path. -/
structure Endpoint where
  method : HttpMethod
  parameters : OrderedMap String EndpointParameter
  requestBodies : OrderedMap String ModelName
  responses : OrderedMap StatusKey EndpointResponse
deriving DecidableEq

namespace Endpoint

/-- The models that an endpoint points at: those of its parameters, then of its request bodies,
then of its responses. -/
def references (endpoint : Endpoint) : List ModelName :=
  endpoint.parameters.values.map EndpointParameter.schema ++ endpoint.requestBodies.values ++
    endpoint.responses.values.flatMap fun response => response.schemas.values

end Endpoint

end ApiCatalog
