import ApiCatalog.Text.Digits
import ApiCatalog.Yaml.Cursor

set_option autoImplicit false

/-!
# Scalars of YAML

Plain and quoted scalars, which may go on on further lines. What stands between two words of a
scalar is collected first, since what it means depends on the line breaks in it.

## Main definitions

* `ApiCatalog.Yaml.Gap`: what stands between two words.
* `ApiCatalog.Yaml.plainScalar`: a scalar without quotes.
* `ApiCatalog.Yaml.singleQuoted`, `ApiCatalog.Yaml.doubleQuoted`: quoted scalars after their
  opening quote.

In all of them `done` is what has been read, last character first, and `gap` what has been read
since the last word.
-/

namespace ApiCatalog.Yaml

/-- What stands between two words of a scalar, last character first. -/
inductive Gap where
  /-- Blanks within a line. -/
  | spaces (reversed : List Char)
  /-- Line breaks; blanks beside them do not count, nor does a first break that is `escaped`, which
  is not in the list. -/
  | breaks (escaped : Bool) (reversed : List Char)

namespace Gap

/-- Nothing at all. -/
def none : Gap :=
  .spaces []

/-- One more blank or line break. -/
def add (c : Char) : Gap → Gap
  | .spaces reversed => if isBreak c then .breaks false [c] else .spaces (c :: reversed)
  | .breaks escaped reversed => .breaks escaped (if isBreak c then c :: reversed else reversed)

/-- Whether there is nothing. -/
def isNone : Gap → Bool
  | .spaces reversed => reversed.isEmpty
  | .breaks _ _ => false

/-- Whether a line ends here. -/
def hasBreak : Gap → Bool
  | .spaces _ => false
  | .breaks _ _ => true

/-- What a gap stands for, last character first. -/
def reversedText : Gap → List Char
  | .spaces reversed => reversed
  | .breaks false reversed => (foldBreaks reversed.reverse).reverse
  | .breaks true reversed => reversed

end Gap

/-! ## Plain scalars -/

/-- Whether a plain scalar can begin with a character before a text. -/
def startsPlain (inFlow : Bool) (c : Char) (rest : List Char) : Bool :=
  if c = '-' then !startsBlank rest
  else if c = '?' || c = ':' then !inFlow && !startsBlank rest
  else !isBlank c && !",[]\x7b\x7d#&*!|>'\"%@`".toList.contains c

/-- Whether a plain scalar ends before a character that follows a gap. -/
def endsAfterGap (inFlow : Bool) (floor : Nat) (gap : Gap) (c : Char) (cursor : Cursor) : Bool :=
  !gap.isNone && (c = '#' || cursor.atMarker || (!inFlow && cursor.column < floor))

/-- Whether a colon in a collection stands directly before an indicator, where it is refused. -/
def isMisplacedColon (inFlow : Bool) (c : Char) (rest : List Char) : Bool :=
  inFlow && c = ':' && rest.head?.any fun next => next = '?' || isFlowIndicator next

/-- Whether a plain scalar ends before a character with the text after it. -/
def endsBefore (inFlow : Bool) (c : Char) (rest : List Char) : Bool :=
  (c = ':' && startsBlank rest) || (inFlow && isFlowIndicator c)

/-- A plain scalar, the gap after it, and the place after that. Its further lines begin at column
`floor` or later, before which no tab may stand. -/
def plainScalar (inFlow : Bool) (floor : Nat) (done : List Char) (gap : Gap) (cursor : Cursor) :
    Option (String × Gap × Cursor) :=
  match _h : cursor.rest with
  | [] => some (String.ofList done.reverse, gap, cursor)
  | c :: rest =>
    if isBlank c then
      if c = '\t' && gap.hasBreak && cursor.column < floor then none
      else plainScalar inFlow floor done (gap.add c) cursor.next
    else if endsAfterGap inFlow floor gap c cursor then
      some (String.ofList done.reverse, gap, cursor)
    else if isMisplacedColon inFlow c rest then none
    else if endsBefore inFlow c rest then some (String.ofList done.reverse, gap, cursor)
    else plainScalar inFlow floor (c :: (gap.reversedText ++ done)) .none cursor.next
termination_by cursor.rest.length
decreasing_by all_goals exact Cursor.length_next _h

/-! ## Quoted scalars -/

/-- A single-quoted scalar, and the place after its closing quote. A quote inside is written
twice. -/
def singleQuoted (done : List Char) (gap : Gap) (cursor : Cursor) : Option (String × Cursor) :=
  match _h : cursor.rest with
  | [] => none
  | c :: rest =>
    if isBlank c then singleQuoted done (gap.add c) cursor.next
    else if cursor.atMarker then none
    else
      let done := gap.reversedText ++ done
      if c ≠ '\'' then singleQuoted (c :: done) .none cursor.next
      else if rest.head? = some '\'' then singleQuoted ('\'' :: done) .none (cursor.skip 2)
      else some (String.ofList done.reverse, cursor.next)
termination_by cursor.rest.length
decreasing_by
  · exact Cursor.length_next _h
  · exact Cursor.length_next _h
  · exact Cursor.length_skip_succ 1 _h

/-- The character that a one-letter escape stands for. -/
def escapedChar? (c : Char) : Option Char :=
  match c with
  | '0' => some (Char.ofNat 0)
  | 'a' => some (Char.ofNat 7)
  | 'b' => some (Char.ofNat 8)
  | 't' => some '\t'
  | '\t' => some '\t'
  | 'n' => some '\n'
  | 'v' => some (Char.ofNat 11)
  | 'f' => some (Char.ofNat 12)
  | 'r' => some '\r'
  | 'e' => some (Char.ofNat 27)
  | ' ' => some ' '
  | '"' => some '"'
  | '/' => some '/'
  | '\\' => some '\\'
  | 'N' => some (Char.ofNat 0x85)
  | '_' => some (Char.ofNat 0xA0)
  | 'L' => some (Char.ofNat 0x2028)
  | 'P' => some (Char.ofNat 0x2029)
  | _ => none

/-- The number of hexadecimal digits that an escape takes. -/
def escapeWidth? (c : Char) : Option Nat :=
  match c with
  | 'x' => some 2
  | 'u' => some 4
  | 'U' => some 8
  | _ => none

/-- What an escape stands for, read after its backslash, and how many characters it takes. -/
def escape? : List Char → Option (Char × Nat)
  | [] => none
  | c :: rest =>
    match escapeWidth? c with
    | some width => (Text.codePoint? width rest).map fun char => (char, width + 1)
    | none => (escapedChar? c).map fun char => (char, 1)

/-- A double-quoted scalar, and the place after its closing quote. A backslash begins an escape, or
takes away the line break after it. -/
def doubleQuoted (done : List Char) (gap : Gap) (cursor : Cursor) : Option (String × Cursor) :=
  match _h : cursor.rest with
  | [] => none
  | c :: rest =>
    if isBlank c then doubleQuoted done (gap.add c) cursor.next
    else if cursor.atMarker then none
    else
      let done := gap.reversedText ++ done
      if c = '"' then some (String.ofList done.reverse, cursor.next)
      else if c ≠ '\\' then doubleQuoted (c :: done) .none cursor.next
      else if rest.head?.any isBreak then doubleQuoted done (.breaks true []) (cursor.skip 2)
      else
        match escape? rest with
        | some (char, width) => doubleQuoted (char :: done) .none (cursor.skip (width + 1))
        | none => none
termination_by cursor.rest.length
decreasing_by
  · exact Cursor.length_next _h
  · exact Cursor.length_next _h
  · exact Cursor.length_skip_succ 1 _h
  · exact Cursor.length_skip_succ width _h

end ApiCatalog.Yaml
