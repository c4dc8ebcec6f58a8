import ApiCatalog.Data.Decode
import ApiCatalog.Document.Basic

set_option autoImplicit false

/-!
# Decoding documents

The shape of an OpenAPI document. Every field that the format gives a meaning is checked, also
where nothing of it is kept. Most records are open to extensions, which have to be JSON values; the
others pass over what has no meaning.

## Main definitions

* `Decode.schemaNode?`: a place where a schema is expected.
* `Decode.pathItem?`, `Decode.callback?`, `Decode.components?`: the parts of a document.
* `Document.ofData?`: a document.

Schemas and path items contain themselves; their readers take the number of levels that may still
follow, which the depth of the tree bounds.
-/

namespace ApiCatalog

open Data

namespace Decode

/-! ## Descriptions -/

/-- A contact: name, address and e-mail. -/
def contact? : Decoder Unit := fun data => do
  let fields ← data.openFields? ["name", "url", "email"]
  fields.checkOptional text? ["name", "email"]
  fields.checkOptional url? ["url"]

/-- A licence. -/
def license? : Decoder Unit := fun data => do
  let fields ← data.openFields? ["name", "identifier", "url"]
  let _ ← fields.required "name" text?
  fields.checkOptional text? ["identifier"]
  fields.checkOptional url? ["url"]

/-- The title and version of what is described. -/
def info? : Decoder (String × String) := fun data => do
  let fields ← data.openFields?
    ["title", "version", "summary", "description", "termsOfService", "contact", "license"]
  let title ← fields.required "title" text?
  let version ← fields.required "version" text?
  fields.checkOptional text? ["summary", "description"]
  fields.checkOptional url? ["termsOfService"]
  fields.checkOptional contact? ["contact"]
  fields.checkOptional license? ["license"]
  return (title, version)

/-- A link to documentation. -/
def externalDoc? : Decoder Unit := fun data => do
  let fields ← data.openFields? ["url", "description"]
  let _ ← fields.required "url" url?
  fields.checkOptional text? ["description"]

/-- A variable in the address of a server. -/
def serverVariable? : Decoder Unit := fun data => do
  let fields ← data.openFields? ["default", "enum", "description"]
  let _ ← fields.required "default" text?
  let _ ← fields.withDefault "enum" (list? text?) []
  fields.checkOptional text? ["description"]

/-- A server. -/
def server? : Decoder Unit := fun data => do
  let fields ← data.openFields? ["url", "description", "variables"]
  let _ ← fields.required "url" text?
  fields.checkOptional text? ["description"]
  let _ ← fields.withDefault "variables" (mapping? serverVariable?) ∅
  return ()

/-- A tag. -/
def tag? : Decoder Unit := fun data => do
  let fields ← data.openFields? ["name", "description"]
  let _ ← fields.required "name" text?
  fields.checkOptional text? ["description"]

/-- Requirements of security: scopes by scheme. -/
def security? : Decoder (List (SortedMap (List String))) :=
  list? (mapping? (list? text?))

/-! ## Schemas -/

/-- A literal of an enumeration. -/
def literal? : Decoder EnumLiteral := fun data =>
  (json? data).map fun
    | .null => .null
    | .text content => .text content
    | _ => .other

/-- The words for types, in the order of their numbers. -/
def typeWords : List String :=
  ["boolean", "integer", "number", "string", "array", "object", "null"]

/-- A type. -/
def schemaType? : Decoder SchemaType := fun data =>
  (variant? typeWords data).bind SchemaType.ofLabel?

/-- The types of a schema: one of them, or a list. -/
def types? : Decoder TypeSet
  | .list items => (items.mapM schemaType?).map TypeSet.ofList
  | single => (schemaType? single).map fun type => .ofList [type]

/-- What tells the members of a composition apart. -/
def discriminator? : Decoder Unit := fun data => do
  let fields ← data.fixedFields? ["propertyName", "mapping"]
  let _ ← fields.required "propertyName" text?
  fields.checkOptional (mapping? text?) ["mapping"]

/-- Either a truth value or a schema. -/
def boolOr? (node? : Decoder Node) : Decoder (Items Node) := fun data =>
  data.settle?.bind fun
    | .bool value => some (.always value)
    | settled => (node? settled).map .each

/-- The fields of a schema that are checked and not kept. -/
def checkSchemaDetails (fields : Fields) : Option Unit := do
  fields.checkOptional anything? ["const", "default", "example"]
  let _ ← fields.withDefault "examples" (list? anything?) []
  fields.checkOptional number?
    ["multipleOf", "maximum", "exclusiveMaximum", "minimum", "exclusiveMinimum"]
  fields.checkOptional natural?
    ["maxLength", "minLength", "maxItems", "minItems", "maxProperties", "minProperties"]
  fields.checkOptional bool? ["uniqueItems", "deprecated", "readOnly", "writeOnly"]
  fields.checkOptional text? ["pattern", "format", "title", "description"]
  fields.checkOptional discriminator? ["discriminator"]

/-- The fields of a schema. -/
def schemaFields : List String :=
  ["allOf", "anyOf", "oneOf", "prefixItems", "items", "additionalProperties", "properties", "type",
    "enum", "const", "default", "example", "examples", "multipleOf", "maximum",
    "exclusiveMaximum", "minimum", "exclusiveMinimum", "maxLength", "minLength", "maxItems",
    "minItems", "maxProperties", "minProperties", "uniqueItems", "deprecated", "readOnly",
    "writeOnly", "pattern", "format", "title", "description", "required", "discriminator"]

/-- A schema that is written in place, with at most `levels` levels. -/
def schema? : Nat → Decoder Schema
  | 0 => fun _ => none
  | levels + 1 => fun data => do
    let node? : Decoder Node := orReference? (schema? levels)
    let fields ← data.openFields? schemaFields
    let allOf ← fields.withDefault "allOf" (list? node?) []
    let anyOf ← fields.withDefault "anyOf" (list? node?) []
    let oneOf ← fields.withDefault "oneOf" (list? node?) []
    let _ ← fields.withDefault "prefixItems" (list? node?) []
    let items ← fields.optional "items" (boolOr? node?)
    fields.checkOptional (boolOr? node?) ["additionalProperties"]
    let properties ← fields.withDefault "properties" (mapping? node?) ∅
    let types ← fields.optional "type" types?
    let literals ← fields.withDefault "enum" (list? literal?) []
    let required ← fields.withDefault "required" (list? text?) []
    checkSchemaDetails fields
    return {
      types := types.getD .empty
      oneOf, allOf, anyOf, literals
      properties := properties.entries
      required, items }

/-- A place where a schema is expected. -/
def schemaNode? : Decoder Node := fun data =>
  orReference? (schema? data.depth) data

/-! ## Parameters and contents -/

/-- An example. -/
def example? : Decoder Unit := fun data => do
  let fields ← data.openFields? ["summary", "description", "value"]
  fields.checkOptional text? ["summary", "description"]
  fields.checkOptional anything? ["value"]

/-- The ways in which a parameter is written. -/
def parameterStyles : List String :=
  ["matrix", "label", "form", "simple", "spaceDelimited", "pipeDelimited", "deepObject"]

/-- A way in which a parameter is written. -/
def style? : Decoder String :=
  variant? parameterStyles

/-- The places where a parameter of a document may be sent, in the order of their numbers. -/
def locations : List ParameterLocation :=
  [.path, .query, .header, .cookie]

/-- Where a parameter of a document is sent. -/
def location? : Decoder ParameterLocation := fun data =>
  (variant? (locations.map (·.label)) data).bind fun word =>
    locations.find? fun location => location.label = word

mutual

/-- What is said about a media type. -/
def mediaType? : Nat → Decoder MediaType
  | 0 => fun _ => none
  | levels + 1 => fun data => do
    let fields ← data.openFields? ["schema", "encoding"]
    let schema ← fields.optional "schema" schemaNode?
    let _ ← fields.withDefault "encoding" (mapping? (encoding? levels)) ∅
    return { schema }

/-- How a part of a request body is encoded. -/
def encoding? : Nat → Decoder Unit
  | 0 => fun _ => none
  | levels + 1 => fun data => do
    let fields ← data.fixedFields? ["contentType", "headers", "style", "explode", "allowReserved"]
    fields.checkOptional text? ["contentType", "style"]
    fields.checkOptional bool? ["explode", "allowReserved"]
    let _ ← fields.withDefault "headers" (mapping? (orReference? (header? levels))) ∅
    return ()

/-- A header. -/
def header? : Nat → Decoder Unit
  | 0 => fun _ => none
  | levels + 1 => fun data => do
    let fields ← data.openFields? ["description", "required", "deprecated", "style", "explode",
      "schema", "example", "examples", "content"]
    fields.checkOptional text? ["description"]
    fields.checkOptional bool? ["required", "deprecated", "explode"]
    fields.checkOptional style? ["style"]
    fields.checkOptional schemaNode? ["schema"]
    fields.checkOptional anything? ["example"]
    let _ ← fields.withDefault "examples" (mapping? (orReference? example?)) ∅
    fields.checkOptional (mapping? (mediaType? levels)) ["content"]

end

/-- What is said about media types, by media type. -/
def content? : Decoder (SortedMap MediaType) := fun data =>
  mapping? (mediaType? data.depth) data

/-- Headers by name. -/
def headers? : Decoder (SortedMap (OrReference Unit)) := fun data =>
  mapping? (orReference? (header? data.depth)) data

/-- A parameter. -/
def parameter? : Decoder Parameter := fun data => do
  let fields ← data.openFields? ["name", "in", "description", "required", "deprecated",
    "allowEmptyValue", "style", "explode", "allowReserved", "schema", "example", "examples",
    "content"]
  let name ← fields.required "name" text?
  let location ← fields.required "in" location?
  fields.checkOptional text? ["description"]
  let required ← fields.optional "required" bool?
  fields.checkOptional bool? ["deprecated", "allowEmptyValue", "explode", "allowReserved"]
  fields.checkOptional style? ["style"]
  let schema ← fields.optional "schema" schemaNode?
  fields.checkOptional anything? ["example"]
  let _ ← fields.withDefault "examples" (mapping? (orReference? example?)) ∅
  let content ← fields.optional "content" content?
  return { name, location, required := required.getD false, schema, content }

/-- Parameters, each written in place or referred to. -/
def parameters? : Decoder (List (OrReference Parameter)) :=
  list? (orReference? parameter?)

/-- A request body. -/
def requestBody? : Decoder RequestBody := fun data => do
  let fields ← data.fixedFields? ["description", "content", "required"]
  fields.checkOptional text? ["description"]
  let content ← fields.required "content" content?
  fields.checkOptional bool? ["required"]
  return { content }

/-- A link to an operation that is given by the field `target`. -/
def linkBy? (target : String) : Decoder Unit := fun data => do
  let fields ← data.openFields? [target, "parameters", "description", "server"]
  let _ ← fields.required target text?
  let _ ← fields.withDefault "parameters" (mapping? text?) ∅
  fields.checkOptional text? ["description"]
  fields.checkOptional server? ["server"]

/-- A link to another operation. -/
def link? : Decoder Unit := fun data =>
  (linkBy? "operationRef" data).orElse fun _ => linkBy? "operationId" data

/-- A response. -/
def response? : Decoder Response := fun data => do
  let fields ← data.openFields? ["description", "headers", "content", "links"]
  fields.checkOptional text? ["description"]
  let _ ← fields.withDefault "headers" headers? ∅
  let content ← fields.withDefault "content" content? ∅
  let _ ← fields.withDefault "links" (mapping? (orReference? link?)) ∅
  return { content }

/-! ## Paths -/

/-- Whether a name marks an extension. -/
def isExtensionName (name : String) : Bool :=
  name.toList.take 2 = ['x', '-']

mutual

/-- What a document says about a path. -/
def pathItem? : Nat → Decoder PathItem
  | 0 => fun _ => none
  | levels + 1 => fun data => do
    let fields ← data.openFields? ["$ref", "summary", "description", "get", "put", "post", "delete",
      "options", "head", "patch", "trace", "servers", "parameters"]
    fields.checkOptional text? ["$ref", "summary", "description"]
    let get ← fields.optional "get" (operation? levels)
    let put ← fields.optional "put" (operation? levels)
    let post ← fields.optional "post" (operation? levels)
    let delete ← fields.optional "delete" (operation? levels)
    let options ← fields.optional "options" (operation? levels)
    let head ← fields.optional "head" (operation? levels)
    let patch ← fields.optional "patch" (operation? levels)
    let trace ← fields.optional "trace" (operation? levels)
    let _ ← fields.withDefault "servers" (list? server?) []
    let parameters ← fields.withDefault "parameters" parameters? []
    return { parameters, get, put, post, delete, options, head, patch, trace }

/-- An operation. -/
def operation? : Nat → Decoder Operation
  | 0 => fun _ => none
  | levels + 1 => fun data => do
    let fields ← data.openFields? ["tags", "summary", "description", "operationId", "externalDocs",
      "parameters", "requestBody", "responses", "callbacks", "deprecated", "security", "servers"]
    let _ ← fields.withDefault "tags" (list? text?) []
    fields.checkOptional text? ["summary", "description", "operationId"]
    fields.checkOptional externalDoc? ["externalDocs"]
    let parameters ← fields.withDefault "parameters" parameters? []
    let requestBody ← fields.optional "requestBody" (orReference? requestBody?)
    let responses ← fields.optional "responses" (mapping? (orReference? response?))
    let _ ← fields.withDefault "callbacks" (mapping? (callback? levels)) ∅
    fields.checkOptional bool? ["deprecated"]
    let _ ← fields.withDefault "security" security? []
    let _ ← fields.withDefault "servers" (list? server?) []
    return { parameters, requestBody, responses }

/-- The paths that an operation may call back, by expression. The whole is first taken as a JSON
value. -/
def callback? : Nat → Decoder Unit
  | 0 => fun _ => none
  | levels + 1 => fun data => do
    let values ← mapping? json? data
    let paths := values.entries.filter fun entry => !isExtensionName entry.1
    paths.forM fun entry => (pathItem? levels entry.2).map fun _ => ()

end

/-- What a document says about a path, whatever its depth. A value left out has one level. -/
def wholePathItem? : Decoder PathItem := fun data =>
  pathItem? (data.depth + 1) data

/-- What an operation may call back, whatever its depth. -/
def wholeCallback? : Decoder Unit := fun data =>
  callback? data.depth data

/-! ## Components -/

/-- The fields of a flow of authorisation that needs some addresses. -/
def flowFields (addresses : List String) : List String :=
  addresses ++ ["refreshUrl", "scopes"]

/-- Checks the fields of a flow of authorisation that needs some addresses. -/
def checkFlow (addresses : List String) (fields : Fields) : Option Unit := do
  addresses.forM fun address => (fields.required address url?).map fun _ => ()
  fields.checkOptional url? ["refreshUrl"]
  let _ ← fields.withDefault "scopes" (mapping? text?) ∅
  return ()

/-- A flow of authorisation that is open to extensions. -/
def openFlow? (addresses : List String) : Decoder Unit := fun data =>
  (data.openFields? (flowFields addresses)).bind (checkFlow addresses)

/-- A flow of authorisation without extensions. -/
def fixedFlow? (addresses : List String) : Decoder Unit := fun data =>
  (data.fixedFields? (flowFields addresses)).bind (checkFlow addresses)

/-- The flows of authorisation. -/
def flows? : Decoder Unit := fun data => do
  let fields ← data.openFields? ["implicit", "password", "clientCredentials", "authorizationCode"]
  fields.checkOptional (openFlow? ["authorizationUrl"]) ["implicit"]
  fields.checkOptional (fixedFlow? ["tokenUrl"]) ["password", "clientCredentials"]
  fields.checkOptional (fixedFlow? ["authorizationUrl", "tokenUrl"]) ["authorizationCode"]

/-- A type of security schemes. -/
inductive SecurityType where
  | apiKey
  | http
  | oauth2
  | openIdConnect
  | mutualTls
deriving DecidableEq, Repr

namespace SecurityType

/-- The types, in the order of their numbers. -/
def all : List SecurityType :=
  [.apiKey, .http, .oauth2, .openIdConnect, .mutualTls]

/-- The word for a type. -/
def label : SecurityType → String
  | .apiKey => "apiKey"
  | .http => "http"
  | .oauth2 => "oauth2"
  | .openIdConnect => "openIdConnect"
  | .mutualTls => "mutualTLS"

/-- The fields of the schemes of a type. -/
def fields : SecurityType → List String
  | .apiKey => ["description", "name", "in"]
  | .http => ["description", "scheme", "bearerFormat"]
  | .oauth2 => ["description", "flows"]
  | .openIdConnect => ["description", "openIdConnectUrl"]
  | .mutualTls => ["description"]

end SecurityType

/-- The type of a security scheme, given by its word or number. -/
def securityType? : Decoder SecurityType := fun data =>
  (keyName? (SecurityType.all.map (·.label)) data).bind fun word =>
    SecurityType.all.find? fun type => type.label = word

/-- Checks the fields of a security scheme of a type. -/
def checkSecurity (type : SecurityType) (fields : Fields) : Option Unit := do
  fields.checkOptional text? ["description"]
  match type with
  | .apiKey => ["name", "in"].forM fun name => (fields.required name text?).map fun _ => ()
  | .http =>
    let _ ← fields.required "scheme" text?
    fields.checkOptional text? ["bearerFormat"]
  | .oauth2 => fields.required "flows" flows?
  | .openIdConnect => (fields.required "openIdConnectUrl" text?).map fun _ => ()
  | .mutualTls => some ()

/-- Whether a member tells the type of a security scheme. -/
def isSecurityType (member : Data × Data) : Bool :=
  member.1.text? = some "type"

/-- A security scheme: a record with its type, or a list that begins with it. -/
def securityScheme? : Decoder Unit
  | .record members =>
    match members.filter isSecurityType with
    | [(_, word)] => do
      let type ← securityType? word
      let rest := members.filter fun member => !isSecurityType member
      checkSecurity type (← numberedFields? type.fields rest)
    | _ => none
  | .list (word :: rest) => do
    let type ← securityType? word
    checkSecurity type (← fixedFields? type.fields (.list rest))
  | _ => none

/-- Components, each written in place or referred to. -/
def entries? {α : Type} (decode : Decoder α) : Decoder (SortedMap (OrReference α)) :=
  mapping? (orReference? decode)

/-- The components of a document. -/
def components? : Decoder Components := fun data => do
  let fields ← data.openFields? ["schemas", "responses", "parameters", "examples", "requestBodies",
    "headers", "pathItems", "securitySchemes", "links", "callbacks"]
  let schemas ← fields.withDefault "schemas" (mapping? schemaNode?) ∅
  let responses ← fields.withDefault "responses" (entries? response?) ∅
  let parameters ← fields.withDefault "parameters" (entries? parameter?) ∅
  let _ ← fields.withDefault "examples" (entries? example?) ∅
  let requestBodies ← fields.withDefault "requestBodies" (entries? requestBody?) ∅
  let _ ← fields.withDefault "headers" headers? ∅
  let _ ← fields.withDefault "pathItems" (entries? wholePathItem?) ∅
  let _ ← fields.withDefault "securitySchemes" (entries? securityScheme?) ∅
  let _ ← fields.withDefault "links" (entries? link?) ∅
  let _ ← fields.withDefault "callbacks" (entries? wholeCallback?) ∅
  return { schemas, parameters, requestBodies, responses }

end Decode

/-- A document. -/
def Document.ofData? (data : Data) : Option Document := do
  let fields ← data.openFields? ["openapi", "info", "servers", "paths", "components", "security",
    "tags", "webhooks", "externalDocs"]
  let openapi ← fields.required "openapi" text?
  let (title, version) ← fields.required "info" Decode.info?
  let _ ← fields.withDefault "servers" (list? Decode.server?) []
  let paths ← fields.optional "paths" (mapping? Decode.wholePathItem?)
  let components ← fields.optional "components" Decode.components?
  let _ ← fields.withDefault "security" Decode.security? []
  let _ ← fields.withDefault "tags" (list? Decode.tag?) []
  let _ ← fields.withDefault "webhooks" (mapping? Decode.wholePathItem?) ∅
  fields.checkOptional Decode.externalDoc? ["externalDocs"]
  return { openapi, title, version, paths, components }

end ApiCatalog
