import ApiCatalog.Document.Schema

set_option autoImplicit false

/-!
# References

A reference names a component of a document: `source#/components/kind/name`, where the source may
be empty and is not looked at.

## Main definitions

* `ApiCatalog.ComponentKind`: the kinds of components that can be referred to.
* `ApiCatalog.Reference`: a reference taken apart.
* `ApiCatalog.Abort`: what makes an extraction impossible to carry on.
* `ApiCatalog.ReferenceError`: why a reference leads to no component.
* `ApiCatalog.componentName`: the component that a reference within the document names.
-/

namespace ApiCatalog

/-- A kind of component that can be referred to. -/
inductive ComponentKind where
  | schema
  | response
  | parameter
  | example
  | requestBody
  | header
  | securityScheme
  | link
  | callback
deriving DecidableEq, Repr

namespace ComponentKind

/-- The kinds of components. -/
def all : List ComponentKind :=
  [.schema, .response, .parameter, .example, .requestBody, .header, .securityScheme, .link,
    .callback]

/-- The name of a kind in a document. -/
def key : ComponentKind → String
  | .schema => "schemas"
  | .response => "responses"
  | .parameter => "parameters"
  | .example => "examples"
  | .requestBody => "requestBodies"
  | .header => "headers"
  | .securityScheme => "securitySchemes"
  | .link => "links"
  | .callback => "callbacks"

/-- The name of a kind in a message. -/
def label : ComponentKind → String
  | .schema => "Schema"
  | .response => "Response"
  | .parameter => "Parameter"
  | .example => "Example"
  | .requestBody => "RequestBody"
  | .header => "Header"
  | .securityScheme => "SecurityScheme"
  | .link => "Link"
  | .callback => "Callback"

/-- The kind of a name in a document. -/
def ofKey? (key : String) : Option ComponentKind :=
  all.find? fun kind => kind.key = key

end ComponentKind

/-- What makes an extraction impossible to carry on. -/
inductive Abort where
  /-- A reference is not of the form `source#/components/kind/name`. -/
  | malformedReference (path : String)
  /-- The components that a reference leads to refer to each other without end. -/
  | endlessAlias (path : String)
  /-- A node number does not belong to the path index. -/
  | unknownPart (id : Nat)
deriving DecidableEq, Repr

/-- Why a reference leads to no component of the kind expected. -/
inductive ReferenceError where
  | invalidType (key : String)
  | mismatchedType (found expected : ComponentKind)
  | unresolvable (path : String)
deriving DecidableEq, Repr

/-- The wording of a reference that leads nowhere. -/
def ReferenceError.message : ReferenceError → String
  | .invalidType key => "Invalid type: " ++ key
  | .mismatchedType found expected =>
    "Mismatched type: cannot reference a " ++ found.label ++ " as a " ++ expected.label
  | .unresolvable path => "Unresolvable path: " ++ path

/-- A reference taken apart. -/
structure Reference where
  source : String
  key : String
  name : String
deriving DecidableEq, Repr

namespace Reference

/-- What stands between the source of a reference and the key of a component kind. -/
def marker : List Char :=
  "#/components/".toList

/-- The rest of a text after a given beginning. -/
def after? : List Char → List Char → Option (List Char)
  | [], rest => some rest
  | _ :: _, [] => none
  | c :: expected, d :: rest => if c = d then after? expected rest else none

/-- The parts of a reference. The source has no `#`, the key has no `/`, and the name, which goes
to the end, has no line break; key and name are not empty. -/
def ofPath? (path : String) : Option Reference := do
  let source := path.toList.takeWhile (· ≠ '#')
  let rest ← after? marker (path.toList.dropWhile (· ≠ '#'))
  let key := rest.takeWhile (· ≠ '/')
  match rest.dropWhile (· ≠ '/') with
  | '/' :: name =>
    if key.isEmpty || name.isEmpty || name.contains '\n' then none
    else some ⟨String.ofList source, String.ofList key, String.ofList name⟩
  | _ => none

/-- The parts of a reference, which has to be well formed. -/
def ofPath (path : String) : Except Abort Reference :=
  match ofPath? path with
  | some reference => .ok reference
  | none => .error (.malformedReference path)

/-- The kind of component that a reference names. -/
def kind (reference : Reference) : Except ReferenceError ComponentKind :=
  match ComponentKind.ofKey? reference.key with
  | some kind => .ok kind
  | none => .error (.invalidType reference.key)

end Reference

/-- What a reference within the document begins with. -/
def internalMarker : List Char :=
  "#/components".toList

/-- The name of the component that a reference within the document points at, of whatever kind.
There is none if the reference does not begin like one within the document, or if its kind is not
known. -/
def componentName (path : String) : Except Abort (Option String) :=
  match Reference.after? internalMarker path.toList with
  | none => .ok none
  | some _ =>
    match Reference.ofPath path with
    | .error abort => .error abort
    | .ok reference =>
      match reference.kind with
      | .error _ => .ok none
      | .ok _ => .ok (some reference.name)

end ApiCatalog
