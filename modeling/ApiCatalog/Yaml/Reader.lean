import ApiCatalog.Data.Basic
import ApiCatalog.Yaml.Token

set_option autoImplicit false

/-!
# Reading YAML

The tokens of a text are put together to the data tree of its only document.

## Main definitions

* `ApiCatalog.Yaml.node`: a scalar or a collection.
* `ApiCatalog.Yaml.document?`: the only document among tokens.
* `ApiCatalog.Yaml.read`: what a text says, unless it is nested deeper than
  `ApiCatalog.Yaml.nestingLimit`.

The readers take a number of steps, which the number of tokens bounds, and answer with the tokens
that are left.
-/

namespace ApiCatalog.Yaml

/-- A value that is left out. -/
def missingValue : Data :=
  .plain ""

/-- Whether the next of some tokens is one of `stops`. -/
def stopsAt (stops tokens : List Token) : Bool :=
  tokens.head?.any stops.contains

mutual

/-- A scalar or a collection. With `block`, it may be in block style; with `compact`, a list may
stand at the column of the record around it. -/
def node : Nat → Bool → Bool → List Token → Option (Data × List Token)
  | 0, _, _, _ => none
  | steps + 1, block, compact, tokens =>
    match tokens with
    | .plain content :: rest => some (.plain content, rest)
    | .quoted content :: rest => some (.text content, rest)
    | .flowListStart :: rest =>
      (flowItems steps [] rest).map fun (items, rest) => (.list items, rest)
    | .flowRecordStart :: rest =>
      (flowMembers steps [] rest).map fun (members, rest) => (.record members, rest)
    | .item :: _ =>
      if compact then
        (compactItems steps [] tokens).map fun (items, rest) => (.list items, rest)
      else none
    | .blockListStart :: rest =>
      if block then (blockItems steps [] rest).map fun (items, rest) => (.list items, rest)
      else none
    | .blockRecordStart :: rest =>
      if block then
        (blockMembers steps [] rest).map fun (members, rest) => (.record members, rest)
      else none
    | _ => none

/-- A node in block style, which is left out before one of `stops`. -/
def blockNode : Nat → Bool → List Token → List Token → Option (Data × List Token)
  | 0, _, _, _ => none
  | steps + 1, compact, stops, tokens =>
    if stopsAt stops tokens then some (missingValue, tokens) else node steps true compact tokens

/-- A node in flow style, which is left out before one of `stops`. -/
def flowNode : Nat → List Token → List Token → Option (Data × List Token)
  | 0, _, _ => none
  | steps + 1, stops, tokens =>
    if stopsAt stops tokens then some (missingValue, tokens) else node steps false false tokens

/-- The items of a list in block style, up to its end. -/
def blockItems : Nat → List Data → List Token → Option (List Data × List Token)
  | 0, _, _ => none
  | steps + 1, done, tokens =>
    match tokens with
    | .item :: rest => do
      let (item, rest) ← blockNode steps false [.item, .blockEnd] rest
      blockItems steps (item :: done) rest
    | .blockEnd :: rest => some (done.reverse, rest)
    | _ => none

/-- The items of a list that stands at the column of the record around it. -/
def compactItems : Nat → List Data → List Token → Option (List Data × List Token)
  | 0, _, _ => none
  | steps + 1, done, tokens =>
    match tokens with
    | .item :: rest => do
      let (item, rest) ← blockNode steps false [.item, .key, .value, .blockEnd] rest
      compactItems steps (item :: done) rest
    | rest => some (done.reverse, rest)

/-- The members of a record in block style, up to its end. -/
def blockMembers : Nat → List (Data × Data) → List Token →
    Option (List (Data × Data) × List Token)
  | 0, _, _ => none
  | steps + 1, done, tokens =>
    match tokens with
    | .key :: rest => do
      let (key, rest) ← blockNode steps true [.key, .value, .blockEnd] rest
      let (value, rest) ← match rest with
        | .value :: rest => blockNode steps true [.key, .value, .blockEnd] rest
        | rest => some (missingValue, rest)
      blockMembers steps ((key, value) :: done) rest
    | .blockEnd :: rest => some (done.reverse, rest)
    | _ => none

/-- An item of a list in flow style. It may be a record of a single member; an explicit key that is
left out takes the token after it with it. -/
def flowItem : Nat → List Token → Option (Data × List Token)
  | 0, _ => none
  | steps + 1, tokens =>
    match tokens with
    | .key :: rest => do
      let (key, rest) ←
        if stopsAt [.value, .separator, .flowListEnd] rest then some (missingValue, rest.drop 1)
        else node steps false false rest
      let (value, rest) ← match rest with
        | .value :: rest => flowNode steps [.separator, .flowListEnd] rest
        | rest => some (missingValue, rest)
      some (.record [(key, value)], rest)
    | tokens => node steps false false tokens

/-- The items of a list in flow style, up to its closing bracket. -/
def flowItems : Nat → List Data → List Token → Option (List Data × List Token)
  | 0, _, _ => none
  | steps + 1, done, tokens =>
    match tokens with
    | .flowListEnd :: rest => some (done.reverse, rest)
    | tokens => do
      let (item, rest) ← flowItem steps tokens
      match rest with
      | .separator :: rest => flowItems steps (item :: done) rest
      | .flowListEnd :: rest => some ((item :: done).reverse, rest)
      | _ => none

/-- A member of a record in flow style. Without a key token the value is left out. -/
def flowMember : Nat → List Token → Option ((Data × Data) × List Token)
  | 0, _ => none
  | steps + 1, tokens =>
    match tokens with
    | .key :: rest => do
      let (key, rest) ← flowNode steps [.value, .separator, .flowRecordEnd] rest
      let (value, rest) ← match rest with
        | .value :: rest => flowNode steps [.separator, .flowRecordEnd] rest
        | rest => some (missingValue, rest)
      some ((key, value), rest)
    | tokens => do
      let (key, rest) ← node steps false false tokens
      some ((key, missingValue), rest)

/-- The members of a record in flow style, up to its closing brace. -/
def flowMembers : Nat → List (Data × Data) → List Token →
    Option (List (Data × Data) × List Token)
  | 0, _, _ => none
  | steps + 1, done, tokens =>
    match tokens with
    | .flowRecordEnd :: rest => some (done.reverse, rest)
    | tokens => do
      let (member, rest) ← flowMember steps tokens
      match rest with
      | .separator :: rest => flowMembers steps (member :: done) rest
      | .flowRecordEnd :: rest => some ((member :: done).reverse, rest)
      | _ => none

end

/-- The root of a document and the tokens after it. After a marker it may be left out. -/
def root (tokens : List Token) : Option (Data × List Token) :=
  let steps := 4 * (tokens.length + 1)
  match tokens with
  | .documentStart :: [] => some (missingValue, [])
  | .documentStart :: rest => blockNode steps false [.documentStart, .documentEnd] rest
  | tokens => node steps true false tokens

/-- The only document among tokens. -/
def document? (tokens : List Token) : Option Data := do
  let (data, rest) ← root tokens
  if rest.all (· = .documentEnd) then some data else none

/-- How deep the collections of a document may be nested. -/
def nestingLimit : Nat := 128

/-- What the only document of a YAML text says. -/
def read (text : List Char) : Option Data :=
  ((tokens? text).bind document?).filter fun data => data.depth ≤ nestingLimit

end ApiCatalog.Yaml
