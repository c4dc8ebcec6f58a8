import ApiCatalog.Json.Basic
import ApiCatalog.Text.Digits

set_option autoImplicit false

/-!
# Data trees

The common form of what is read from JSON and from YAML. A plain YAML scalar keeps its text, since
its type depends on what is expected where it stands.

## Main definitions

* `ApiCatalog.Number`: numbers, as far as they are told apart.
* `ApiCatalog.Data`: the trees.
* `Data.ofJson`: a JSON value as a tree.
* `Data.depth`: how deep containers are nested in a tree.
-/

namespace ApiCatalog

/-- A number. Integers that need more than 64 bits are floats. -/
inductive Number where
  /-- An integer without a minus sign. -/
  | natural (value : Nat)
  /-- An integer with a minus sign before its magnitude. -/
  | negative (magnitude : Nat)
  | float (isFinite : Bool)
deriving DecidableEq, Repr

namespace Number

/-- The number that a JSON literal spells. A minus sign before zero makes it a float. -/
def ofLiteral (literal : String) : Number :=
  match literal.toList with
  | '-' :: digits =>
    match Text.number? 10 digits with
    | some n => if 0 < n && n ≤ UInt64.size / 2 then .negative n else .float true
    | none => .float true
  | digits =>
    match Text.number? 10 digits with
    | some n => if n < UInt64.size then .natural n else .float true
    | none => .float true

end Number

/-- What a text in one of the document formats says. -/
inductive Data where
  | null
  | bool (value : Bool)
  | number (value : Number)
  | text (content : String)
  /-- A scalar that is not quoted, and whose type is still open. -/
  | plain (content : String)
  | list (items : List Data)
  | record (members : List (Data × Data))
deriving Inhabited

namespace Data

mutual

/-- A JSON value as a data tree. -/
def ofJson : Json → Data
  | .null => .null
  | .bool value => .bool value
  | .number literal => .number (.ofLiteral literal)
  | .string content => .text content
  | .array items => .list (ofJsonItems items)
  | .object members => .record (ofJsonMembers members)

/-- JSON values as data trees. -/
def ofJsonItems : List Json → List Data
  | [] => []
  | item :: rest => ofJson item :: ofJsonItems rest

/-- The members of a JSON object as those of a record. -/
def ofJsonMembers : List (String × Json) → List (Data × Data)
  | [] => []
  | (name, value) :: rest => (.text name, ofJson value) :: ofJsonMembers rest

end

mutual

/-- The number of containers within one another in a tree. -/
def depth : Data → Nat
  | .list items => depthItems items + 1
  | .record members => depthMembers members + 1
  | _ => 0

/-- The greatest depth among trees. -/
def depthItems : List Data → Nat
  | [] => 0
  | item :: rest => max (depth item) (depthItems rest)

/-- The greatest depth among the keys and values of members. -/
def depthMembers : List (Data × Data) → Nat
  | [] => 0
  | (key, value) :: rest => max (max (depth key) (depth value)) (depthMembers rest)

end

end Data

end ApiCatalog
