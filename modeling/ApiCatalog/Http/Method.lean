set_option autoImplicit false

/-!
# Request methods

The methods that an operation of a document may have, and the reading of a method's name.

## Main definitions

* `ApiCatalog.HttpMethod`: the eight methods.
* `HttpMethod.ofName?`: reading without regard to ASCII case.
* `HttpMethod.ofToken`: exact reading of a request token.
-/

namespace ApiCatalog

/-- A request method that a document can declare operations for. -/
inductive HttpMethod where
  | get
  | put
  | post
  | delete
  | options
  | head
  | patch
  | trace
deriving DecidableEq, Repr

/-- Why a request token is not a method that can be declared. -/
inductive MethodError where
  /-- The token is well formed, but names another method. -/
  | unsupported (token : String)
  /-- The text is no request token. -/
  | notAToken
deriving DecidableEq, Repr

/-- The wording of a refused method. -/
def MethodError.message : MethodError → String
  | .unsupported token => "unsupported HTTP method '" ++ token ++ "'"
  | .notAToken => "invalid HTTP method"

namespace HttpMethod

/-- The methods, in the order in which an operation list gives them. -/
def all : List HttpMethod :=
  [.get, .put, .post, .delete, .options, .head, .patch, .trace]

/-- The name of a method. -/
def name : HttpMethod → String
  | .get => "GET"
  | .put => "PUT"
  | .post => "POST"
  | .delete => "DELETE"
  | .options => "OPTIONS"
  | .head => "HEAD"
  | .patch => "PATCH"
  | .trace => "TRACE"

/-- The place of a method among all. -/
def rank (method : HttpMethod) : Nat :=
  all.idxOf method

/-- The method of a name, in whatever ASCII case it is written. -/
def ofName? (text : String) : Option HttpMethod :=
  all.find? fun method => method.name.toList = text.toList.map Char.toUpper

/-- Whether a character may stand in a request token. -/
def isTokenChar (c : Char) : Bool :=
  c.isAlphanum || "!#$%&'*+-.^_`|~".toList.contains c

/-- The method of a request token, which is matched exactly. -/
def ofToken (text : String) : Except MethodError HttpMethod :=
  if text.isEmpty || !text.toList.all isTokenChar then .error .notAToken
  else match all.find? fun method => method.name = text with
    | some method => .ok method
    | none => .error (.unsupported text)

/-- The name of a method is the token of that method. -/
@[simp]
theorem ofToken_name (method : HttpMethod) : ofToken method.name = .ok method := by
  cases method <;> rfl

end HttpMethod

end ApiCatalog
