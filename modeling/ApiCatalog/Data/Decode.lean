import ApiCatalog.Collections.SortedMap
import ApiCatalog.Data.Scalar
import ApiCatalog.Document.Schema

set_option autoImplicit false

/-!
# Decoding data trees

Readers for the shapes that documents are made of. A reader answers `none` where the tree does not
have the shape expected.

## Main definitions

* `ApiCatalog.Decoder`: readers of trees.
* `Data.text?`, `Data.bool?`, `Data.natural?`, `Data.list?`, `Data.mapping?`: simple shapes.
* `Data.json?`: a tree as a JSON value.
* `Data.variant?`: one of several words.
* `ApiCatalog.Fields`: the members of a record that have a meaning.
* `Data.openFields?`, `Data.fixedFields?`: the fields of records of two kinds.
* `Data.orReference?`: a value that may be replaced by a reference.
-/

namespace ApiCatalog

/-- A reader of trees of one shape. -/
abbrev Decoder (α : Type) := Data → Option α

namespace Data

/-! ## Simple shapes -/

/-- A text; a plain scalar is taken as it is written. -/
def text? : Decoder String
  | .text content => some content
  | .plain content => some content
  | _ => none

/-- A truth value. -/
def bool? : Decoder Bool
  | .bool value => some value
  | .plain content => boolWord? content
  | _ => none

/-- A natural number of 64 bits. Zero may have a minus sign, where that does not make it a float. -/
def natural? (data : Data) : Option Nat :=
  match data.settle? with
  | some (.number (.natural n)) => some n
  | some (.number (.negative 0)) => some 0
  | _ => none

/-- Any finite number. -/
def number? (data : Data) : Option Number :=
  match data.settle? with
  | some (.number (.float false)) => none
  | some (.number value) => some value
  | _ => none

/-- Whether a tree is null. -/
def isNull : Data → Bool
  | .null => true
  | .plain content => isNullWord content
  | _ => false

/-- A list; a value left out is an empty one. -/
def list? {α : Type} (decode : Decoder α) : Decoder (List α)
  | .list items => items.mapM decode
  | .plain content => if content.isEmpty then some [] else none
  | _ => none

/-- The members of a record; a value left out has none. -/
def members? : Decoder (List (Data × Data))
  | .record members => some members
  | .plain content => if content.isEmpty then some [] else none
  | _ => none

/-- A map from texts; the last value of a repeated key counts. -/
def mapping? {α : Type} (decode : Decoder α) (data : Data) : Option (SortedMap α) := do
  let members ← data.members?
  let entries ← members.mapM fun member => do
    let key ← member.1.text?
    let value ← decode member.2
    return (key, value)
  return .ofList entries

/-- Nothing for null, else a value. -/
def nullable? {α : Type} (decode : Decoder α) (data : Data) : Option (Option α) :=
  if data.isNull then some none else (decode data).map some

/-- An absolute URL: a scheme, a colon, and something after it. -/
def url? (data : Data) : Option String := do
  let content ← data.text?
  let chars := content.toList
  let isSchemeChar := fun c : Char => c.isAlphanum || c = '+' || c = '-' || c = '.'
  match chars, chars.dropWhile isSchemeChar with
  | first :: _, ':' :: rest =>
    if first.isAlpha && rest.any (· ≠ '/') then some content else none
  | _, _ => none

/-! ## JSON values -/

mutual

/-- A tree as a JSON value: every scalar has its type, a number that is not finite is null, and
the keys of a record are texts that are not repeated. -/
def json? : Decoder Data
  | .null => some .null
  | .bool value => some (.bool value)
  | .number value => some (if value = .float false then .null else .number value)
  | .text content => some (.text content)
  | .plain content => (ofPlain? content).map fun data =>
      if data matches .number (.float false) then .null else data
  | .list items => (jsonItems? items).map .list
  | .record members => (jsonMembers? members).map fun entries =>
      .record ((SortedMap.ofList entries).entries.map fun entry => (.text entry.1, entry.2))

/-- Trees as JSON values. -/
def jsonItems? : List Data → Option (List Data)
  | [] => some []
  | item :: rest => do
    let item ← json? item
    let rest ← jsonItems? rest
    return item :: rest

/-- Members as those of a JSON object. -/
def jsonMembers? : List (Data × Data) → Option (List (String × Data))
  | [] => some []
  | (key, value) :: rest => do
    let key ← key.text?
    let value ← json? value
    let rest ← jsonMembers? rest
    return (key, value) :: rest

end

/-- Checks that a tree is a JSON value. -/
def anything? : Decoder Unit := fun data =>
  (json? data).map fun _ => ()

/-! ## Words -/

/-- The one among names that a key stands for, which may also give its number. -/
def keyName? (names : List String) : Decoder String
  | .text name => if names.contains name then some name else none
  | .number (.natural n) => names[n]?
  | _ => none

/-- One of several words. It may also be the key of a record's only member, which is null. -/
def variant? (words : List String) : Decoder String
  | .text word => if words.contains word then some word else none
  | .record [(key, .null)] => keyName? words key
  | _ => none

end Data

/-! ## Records -/

/-- The members of a record that have a meaning, by name. In a list that stands for a record, no
field may be missing, unless there is something it is by default. -/
structure Fields where
  members : List (String × Data)
  isList : Bool := false

namespace Fields

/-- The value of a field. -/
def value? (fields : Fields) (name : String) : Option Data :=
  (fields.members.find? fun member => member.1 = name).map Prod.snd

/-- A field that has to be there. -/
def required {α : Type} (fields : Fields) (name : String) (decode : Decoder α) : Option α :=
  (fields.value? name).bind decode

/-- A field that may be missing or null. -/
def optional {α : Type} (fields : Fields) (name : String) (decode : Decoder α) :
    Option (Option α) :=
  match fields.value? name with
  | none => if fields.isList then none else some none
  | some data => data.nullable? decode

/-- A field that may be missing, but not null. -/
def withDefault {α : Type} (fields : Fields) (name : String) (decode : Decoder α) (missing : α) :
    Option α :=
  match fields.value? name with
  | none => some missing
  | some data => decode data

/-- Checks that fields are missing, null or of a shape. -/
def checkOptional {α : Type} (fields : Fields) (decode : Decoder α) (names : List String) :
    Option Unit :=
  names.forM fun name => (fields.optional name decode).map fun _ => ()

/-- Fields of which none may be repeated. -/
def ofMembers? (members : List (String × Data)) : Option Fields :=
  if (members.map Prod.fst).Nodup then some { members } else none

end Fields

namespace Data

/-- Whether a key may stand in a record whose fields are told by their names or numbers. -/
def isFieldKey : Data → Bool
  | .text _ => true
  | .number (.natural _) => true
  | _ => false

/-- The members of a record that bear one of some names. -/
def named (names : List String) (members : List (Data × Data)) : List (String × Data) :=
  members.filterMap fun member =>
    (member.1.text?.filter names.contains).map fun name => (name, member.2)

/-- Checks a member that has no meaning in a record that is open to extensions: a JSON value under
a text. -/
def checkExtension (member : Data × Data) : Option Unit := do
  let _ ← member.1.text?
  member.2.settle?.bind anything?

/-- The fields of a record that is open to extensions. -/
def openFields? (names : List String) (data : Data) : Option Fields := do
  let members ← data.members?
  members.forM fun member =>
    if member.1.text?.any names.contains then some () else checkExtension member
  Fields.ofMembers? (named names members)

/-- The fields among members whose keys give names or numbers; the keys have their types. -/
def numberedFields? (names : List String) (members : List (Data × Data)) : Option Fields :=
  if members.all fun member => isFieldKey member.1 then
    Fields.ofMembers? (members.filterMap fun member =>
      (keyName? names member.1).map fun name => (name, member.2))
  else none

/-- The fields of a record that has no extensions. Their keys may be numbers, and a list may stand
for the record, with the values in the order of the fields. -/
def fixedFields? (names : List String) : Decoder Fields
  | .record members => numberedFields? names members
  | .list items =>
    if items.length ≤ names.length then some { members := names.zip items, isList := true }
    else none
  | _ => none

/-! ## References -/

/-- The target of a record that is a reference: its target is a text, summary and description are
texts or null if they are there, and none of the three is repeated. -/
def reference? : Decoder String
  | .record members => do
    let fields ← numberedFields? ["$ref", "summary", "description"] members
    let target ← fields.required "$ref" text?
    fields.checkOptional text? ["summary", "description"]
    return target
  | _ => none

/-- A reference, or a value written in place. Plain scalars get their types first. -/
def orReference? {α : Type} (decode : Decoder α) (data : Data) : Option (OrReference α) := do
  let settled ← data.settle?
  match settled.reference? with
  | some target => return .reference target
  | none => return .inline (← decode settled)

end Data

end ApiCatalog
