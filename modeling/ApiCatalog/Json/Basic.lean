set_option autoImplicit false

/-!
# JSON values

A JSON value as it is written: an object is the list of its members in order, and a number is its
literal, so that nothing of the text is lost but blanks and the spelling of escapes.

## Main definitions

* `ApiCatalog.Json`: the values.
* `Json.ofNat`: the number that writes a natural number.
* `Json.texts`: an array of strings.
-/

namespace ApiCatalog

/-- A JSON value; members keep their order and their repetitions. -/
inductive Json where
  | null
  | bool (value : Bool)
  | number (literal : String)
  | string (text : String)
  | array (items : List Json)
  | object (members : List (String × Json))
deriving Inhabited

namespace Json

/-- The number that writes a natural number. -/
def ofNat (n : Nat) : Json :=
  .number (toString n)

/-- An array of strings. -/
def texts (items : List String) : Json :=
  .array (items.map .string)

/-- A string, or `null` for none. -/
def ofText? : Option String → Json
  | none => .null
  | some text => .string text

/-- The first value that stands with a name among the members of an object. -/
def member? (name : String) : Json → Option Json
  | .object members => (members.find? fun member => member.1 = name).map Prod.snd
  | _ => none

end Json

end ApiCatalog
