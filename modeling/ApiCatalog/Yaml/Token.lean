import ApiCatalog.Yaml.Scalar

set_option autoImplicit false

/-!
# Tokens of YAML

A text is cut into tokens from left to right. That a scalar or a collection is a key turns out only
at the colon after it, so that the places where a key may have begun are remembered; a key stands
on one line and is not longer than 1024 bytes. In block style the columns of keys and dashes open
and close collections.

Directives, anchors, tags and block scalars are not read.

## Main definitions

* `ApiCatalog.Yaml.Token`: the tokens.
* `ApiCatalog.Yaml.Scanner`: how far a text has been cut.
* `ApiCatalog.Yaml.tokens?`: the tokens of a text.
-/

namespace ApiCatalog.Yaml

/-- A token. -/
inductive Token where
  | documentStart
  | documentEnd
  | blockListStart
  | blockRecordStart
  | blockEnd
  | flowListStart
  | flowListEnd
  | flowRecordStart
  | flowRecordEnd
  /-- The dash before an item. -/
  | item
  /-- The comma between parts of a collection. -/
  | separator
  | key
  | value
  | plain (content : String)
  | quoted (content : String)
deriving DecidableEq, Repr

/-- A place where a key may have begun. -/
structure KeyStart where
  /-- The place in the text. -/
  cursor : Cursor
  /-- The number of tokens before the key. -/
  position : Nat
  /-- Whether nothing but a key can begin there. -/
  required : Bool

/-- Whether a key that began earlier cannot reach as far as a place. -/
def KeyStart.isStale (start : KeyStart) (now : Cursor) : Bool :=
  start.cursor.line < now.line || start.cursor.offset + 1024 < now.offset

/-- How far a text has been cut into tokens. -/
structure Scanner where
  cursor : Cursor
  tokens : Array Token := #[]
  /-- The columns of the open block collections, the innermost one first. -/
  indents : List Nat := []
  /-- Where a key of the innermost collection may have begun. -/
  keyStart : Option KeyStart := none
  /-- The same for the collections around the open flow collections, the innermost one first. -/
  outerStarts : List (Option KeyStart) := []
  /-- Whether a key may begin here. -/
  keyAllowed : Bool := true

namespace Scanner

/-- Whether a flow collection is open. -/
def inFlow (scanner : Scanner) : Bool :=
  !scanner.outerStarts.isEmpty

/-- Adds a token that takes a number of characters. -/
def push (scanner : Scanner) (token : Token) (width : Nat) : Scanner :=
  { scanner with tokens := scanner.tokens.push token, cursor := scanner.cursor.skip width }

/-! ## Blanks -/

/-- The place of the next token, and whether a key may begin there. A tab is a blank only where no
block collection could begin; a byte order mark at the beginning of a line is passed over. -/
def tokenPlace (inFlow keyAllowed comment : Bool) (cursor : Cursor) : Cursor × Bool :=
  match _h : cursor.rest with
  | [] => (cursor, keyAllowed)
  | c :: _ =>
    if isBreak c then tokenPlace inFlow (keyAllowed || !inFlow) false cursor.next
    else if comment then tokenPlace inFlow keyAllowed true cursor.next
    else if c = ' ' || (c = '\t' && (inFlow || !keyAllowed)) ||
        (c.toNat = 0xFEFF && cursor.column = 0) then
      tokenPlace inFlow keyAllowed false cursor.next
    else if c = '#' then tokenPlace inFlow keyAllowed true cursor.next
    else (cursor, keyAllowed)
termination_by cursor.rest.length
decreasing_by all_goals exact Cursor.length_next _h

/-- Goes to the next token. -/
def skipBlanks (scanner : Scanner) : Scanner :=
  let (cursor, keyAllowed) := tokenPlace scanner.inFlow scanner.keyAllowed false scanner.cursor
  { scanner with cursor, keyAllowed }

/-! ## Keys -/

/-- Gives up a place where a key may have begun, unless a key is required there. -/
def abandon : Option KeyStart → Option (Option KeyStart)
  | none => some none
  | some start => if start.required then none else some none

/-- Gives up a place where a key may have begun if the key would have become too long. -/
def abandonStale (now : Cursor) (start : Option KeyStart) : Option (Option KeyStart) :=
  if start.any (·.isStale now) then abandon start else some start

/-- Gives up the places where a key may have begun that are too far back. -/
def forgetStale (scanner : Scanner) : Option Scanner := do
  let keyStart ← abandonStale scanner.cursor scanner.keyStart
  let outerStarts ← scanner.outerStarts.mapM (abandonStale scanner.cursor)
  return { scanner with keyStart, outerStarts }

/-- Gives up the place where a key of the innermost collection may have begun. -/
def forgetKey (scanner : Scanner) : Option Scanner := do
  let keyStart ← abandon scanner.keyStart
  return { scanner with keyStart }

/-- Remembers that a key may begin here, if that is allowed. At the column of an open block
collection nothing else can begin. -/
def markKey (scanner : Scanner) : Option Scanner :=
  if scanner.keyAllowed then do
    let scanner ← scanner.forgetKey
    let required := !scanner.inFlow && scanner.indents.head? = some scanner.cursor.column
    return { scanner with
      keyStart := some ⟨scanner.cursor, scanner.tokens.size, required⟩ }
  else some scanner

/-! ## Block collections -/

/-- Opens a block collection at a column, unless that is the column of an open one. Its token is
put after the first `position` tokens. -/
def openBlock (scanner : Scanner) (column position : Nat) (token : Token) : Scanner :=
  if scanner.inFlow || scanner.indents.head?.any (column ≤ ·) then scanner
  else { scanner with
    indents := column :: scanner.indents
    tokens := scanner.tokens.insertIdxIfInBounds position token }

/-- Closes the block collections that satisfy a condition on their columns. -/
def closeBlocks (scanner : Scanner) (isDone : Nat → Bool) : Scanner :=
  if scanner.inFlow then scanner
  else
    let done := scanner.indents.takeWhile isDone
    { scanner with
      indents := scanner.indents.drop done.length
      tokens := scanner.tokens ++ (done.map fun _ => Token.blockEnd).toArray }

/-! ## Tokens -/

/-- A marker between documents. -/
def marker (scanner : Scanner) (token : Token) : Option Scanner := do
  let scanner ← (scanner.closeBlocks fun _ => true).forgetKey
  return { scanner.push token 3 with keyAllowed := false }

/-- The opening bracket of a flow collection, which may be a key as a whole. -/
def openFlow (scanner : Scanner) (token : Token) : Option Scanner := do
  let scanner ← scanner.markKey
  return { scanner.push token 1 with
    keyStart := none
    outerStarts := scanner.keyStart :: scanner.outerStarts
    keyAllowed := true }

/-- The closing bracket of a flow collection. -/
def closeFlow (scanner : Scanner) (token : Token) : Option Scanner := do
  let scanner ← scanner.forgetKey
  let scanner := { scanner.push token 1 with keyAllowed := false }
  match scanner.outerStarts with
  | [] => return scanner
  | start :: outer => return { scanner with keyStart := start, outerStarts := outer }

/-- A comma between the parts of a flow collection. -/
def separator (scanner : Scanner) : Option Scanner := do
  let scanner ← scanner.forgetKey
  return { scanner.push .separator 1 with keyAllowed := true }

/-- The dash before an item. -/
def item (scanner : Scanner) : Option Scanner := do
  if !scanner.inFlow && !scanner.keyAllowed then none
  else
    let scanner ← (scanner.openBlock scanner.cursor.column scanner.tokens.size
      .blockListStart).forgetKey
    return { scanner.push .item 1 with keyAllowed := true }

/-- The question mark before a key. -/
def explicitKey (scanner : Scanner) : Option Scanner := do
  if !scanner.inFlow && !scanner.keyAllowed then none
  else
    let scanner ← (scanner.openBlock scanner.cursor.column scanner.tokens.size
      .blockRecordStart).forgetKey
    return { scanner.push .key 1 with keyAllowed := !scanner.inFlow }

/-- The colon before a value. What began at the last place where a key may have begun is its key. -/
def value (scanner : Scanner) : Option Scanner :=
  match scanner.keyStart with
  | some start =>
    let scanner := { scanner with
      tokens := scanner.tokens.insertIdxIfInBounds start.position .key
      keyStart := none
      keyAllowed := false }
    some ((scanner.openBlock start.cursor.column start.position .blockRecordStart).push .value 1)
  | none =>
    if !scanner.inFlow && !scanner.keyAllowed then none
    else
      let scanner := scanner.openBlock scanner.cursor.column scanner.tokens.size .blockRecordStart
      some { scanner.push .value 1 with keyAllowed := !scanner.inFlow }

/-- A quoted scalar, which may be a key, in the reading of what follows its opening quote. -/
def quotedScalar (scanner : Scanner) (read : Cursor → Option (String × Cursor)) :
    Option Scanner := do
  let scanner ← scanner.markKey
  let (content, cursor) ← read scanner.cursor.next
  return { scanner.push (.quoted content) 0 with cursor, keyAllowed := false }

/-- A plain scalar, which may be a key. After a line break behind it, another key may begin. -/
def plainScalar (scanner : Scanner) : Option Scanner := do
  let scanner ← scanner.markKey
  let floor := (scanner.indents.head?.map (· + 1)).getD 0
  let (content, gap, cursor) ← Yaml.plainScalar scanner.inFlow floor [] .none scanner.cursor
  return { scanner.push (.plain content) 0 with cursor, keyAllowed := gap.hasBreak }

/-- The token that begins with a character before a text. -/
def token (scanner : Scanner) (c : Char) (rest : List Char) : Option Scanner :=
  if scanner.cursor.startsDocument then scanner.marker .documentStart
  else if scanner.cursor.endsDocument then scanner.marker .documentEnd
  else if c = '[' then scanner.openFlow .flowListStart
  else if c = '{' then scanner.openFlow .flowRecordStart
  else if c = ']' then scanner.closeFlow .flowListEnd
  else if c = '}' then scanner.closeFlow .flowRecordEnd
  else if c = ',' then scanner.separator
  else if c = '-' && startsBlank rest then scanner.item
  else if c = '?' && (scanner.inFlow || startsBlank rest) then scanner.explicitKey
  else if c = ':' && (scanner.inFlow || startsBlank rest) then scanner.value
  else if c = '\'' then scanner.quotedScalar (singleQuoted [] .none)
  else if c = '"' then scanner.quotedScalar (doubleQuoted [] .none)
  else if startsPlain scanner.inFlow c rest then scanner.plainScalar
  else none

/-- Cuts the rest of a text. Every token takes a character at least, so that the length of the text
bounds the number of steps. -/
def run : Nat → Scanner → Option (Array Token)
  | 0, _ => none
  | steps + 1, scanner => do
    let scanner ← scanner.skipBlanks.forgetStale
    match scanner.cursor.rest with
    | [] =>
      let scanner ← (scanner.closeBlocks fun _ => true).forgetKey
      return scanner.tokens
    | c :: rest =>
      let column := scanner.cursor.column
      run steps (← (scanner.closeBlocks (column < ·)).token c rest)

end Scanner

/-- The tokens of a text. -/
def tokens? (text : List Char) : Option (List Token) :=
  if text.all isAllowed then
    let rest := normalizeBreaks text
    ((Scanner.run (rest.length + 1) { cursor := { rest } }).map Array.toList)
  else none

end ApiCatalog.Yaml
