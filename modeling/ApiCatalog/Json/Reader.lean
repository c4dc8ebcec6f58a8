import ApiCatalog.Json.Basic
import ApiCatalog.Json.Token

set_option autoImplicit false

/-!
# Reading JSON

A JSON text is read token by token, with a stack of the containers that are open. The first token
that cannot stand where it does decides the answer, and a text that stops while something is open
has ended too early.

## Main definitions

* `ApiCatalog.Json.read`: the value that a byte sequence spells, containers being nested at most
  `depth` deep.
* `ApiCatalog.Json.readObject`: the same for a text that has to be an object.
* `ApiCatalog.Json.nestingLimit`: the depth allowed in documents.
-/

namespace ApiCatalog.Json

/-- An open container with what it holds so far, last first; an object also has the name whose
value is being read. -/
inductive Frame where
  | array (items : List Json)
  | object (members : List (String × Json)) (name : String)

/-- What may come next. -/
inductive Place where
  /-- A value. -/
  | value
  /-- A value or the end of the array just opened. -/
  | firstItem
  /-- A name or the end of the object just opened. -/
  | firstName
  /-- A name of an object that holds `members`. -/
  | name (members : List (String × Json))
  /-- The colon after a name. -/
  | colon (members : List (String × Json)) (name : String)
  /-- A separator, or the end of the innermost container or of the text. -/
  | after (value : Json)

/-- Reads the rest of a text. -/
def readTokens (depth : Nat) : List Token → Place → List Frame → Except Fault Json
  | [], .after value, [] => .ok value
  | [], _, _ => .error .endOfInput
  | token :: rest, .name members, stack =>
    match token with
    | .text (.ok name) => readTokens depth rest (.colon members name) stack
    | .text (.error fault) => .error fault
    | _ => .error .malformed
  | token :: rest, .firstName, stack =>
    match token with
    | .text (.ok name) => readTokens depth rest (.colon [] name) stack
    | .text (.error fault) => .error fault
    | .closeObject => readTokens depth rest (.after (.object [])) stack
    | _ => .error .malformed
  | token :: rest, .colon members name, stack =>
    match token with
    | .colon => readTokens depth rest .value (.object members name :: stack)
    | _ => .error .malformed
  | token :: rest, .after value, stack =>
    match token, stack with
    | .comma, .array items :: outer =>
      readTokens depth rest .value (.array (value :: items) :: outer)
    | .closeArray, .array items :: outer =>
      readTokens depth rest (.after (.array (value :: items).reverse)) outer
    | .comma, .object members name :: outer =>
      readTokens depth rest (.name ((name, value) :: members)) outer
    | .closeObject, .object members name :: outer =>
      readTokens depth rest (.after (.object ((name, value) :: members).reverse)) outer
    | _, _ => .error .malformed
  | token :: rest, place, stack =>
    match token with
    | .word (.ok .null) => readTokens depth rest (.after .null) stack
    | .word (.ok .true) => readTokens depth rest (.after (.bool true)) stack
    | .word (.ok .false) => readTokens depth rest (.after (.bool false)) stack
    | .word (.error fault) => .error fault
    | .number (.ok literal) => readTokens depth rest (.after (.number literal)) stack
    | .number (.error fault) => .error fault
    | .text (.ok text) => readTokens depth rest (.after (.string text)) stack
    | .text (.error fault) => .error fault
    | .openArray =>
      if depth ≤ stack.length then .error .malformed
      else readTokens depth rest .firstItem (.array [] :: stack)
    | .openObject =>
      if depth ≤ stack.length then .error .malformed
      else readTokens depth rest .firstName stack
    | .closeArray =>
      match place, stack with
      | .firstItem, .array _ :: outer => readTokens depth rest (.after (.array [])) outer
      | _, _ => .error .malformed
    | _ => .error .malformed

/-- How deep the containers of a document may be nested. -/
def nestingLimit : Nat := 127

/-- The value that a byte sequence spells in JSON. -/
def read (depth : Nat) (bytes : List UInt8) : Except Fault Json :=
  readTokens depth (tokens bytes) .value []

/-- Whether a token begins a value that is an object; no value begins with some tokens. -/
def Token.beginsObject : Token → Except Fault Bool
  | .openObject => .ok true
  | .openArray => .ok false
  | .word found => found.map fun _ => false
  | .number found => found.map fun _ => false
  | .text found => found.map fun _ => false
  | _ => .error .malformed

/-- The object that a byte sequence spells in JSON, or nothing if it begins with another value, of
which only the first token is looked at. -/
def readObject (depth : Nat) (bytes : List UInt8) : Except Fault (Option Json) :=
  match nextToken bytes with
  | none => .error .endOfInput
  | some (token, _) =>
    match token.beginsObject with
    | .error fault => .error fault
    | .ok false => .ok none
    | .ok true => (read depth bytes).map some

end ApiCatalog.Json
