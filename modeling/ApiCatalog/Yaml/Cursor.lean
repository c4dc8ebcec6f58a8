import ApiCatalog.Yaml.Character

set_option autoImplicit false

/-!
# Places in a YAML text

A cursor is a place in a text together with what follows it. Lines and columns decide over
structure, and offsets bound the length of keys.

## Main definitions

* `ApiCatalog.Yaml.Cursor`: a place in a text.
* `Cursor.next`, `Cursor.skip`: places further on.
* `Cursor.atMarker`: whether a document begins or ends at a place.

## Main results

* `Cursor.length_next`, `Cursor.length_skip`: less text follows places further on.
-/

namespace ApiCatalog.Yaml

/-- A place in a text: the bytes before it, its line, its column, and the text after it. -/
structure Cursor where
  offset : Nat := 0
  line : Nat := 0
  column : Nat := 0
  rest : List Char

namespace Cursor

/-- The place after the next character. -/
def next (cursor : Cursor) : Cursor :=
  match cursor.rest with
  | [] => cursor
  | c :: rest =>
    let offset := cursor.offset + c.utf8Size
    if isBreak c then ⟨offset, cursor.line + 1, 0, rest⟩
    else ⟨offset, cursor.line, cursor.column + 1, rest⟩

/-- The place after a number of characters. -/
def skip : Nat → Cursor → Cursor
  | 0, cursor => cursor
  | count + 1, cursor => skip count cursor.next

/-- The text after the next character. -/
theorem rest_next {cursor : Cursor} {c : Char} {rest : List Char} (h : cursor.rest = c :: rest) :
    cursor.next.rest = rest := by
  unfold next
  rw [h]
  dsimp only
  split <;> rfl

/-- Less text follows the place after the next character, if there is one. -/
theorem length_next {cursor : Cursor} {c : Char} {rest : List Char}
    (h : cursor.rest = c :: rest) : cursor.next.rest.length < cursor.rest.length := by
  rw [rest_next h, h]
  exact Nat.lt_succ_self _

/-- No more text follows a place that is not before another. -/
theorem length_skip (count : Nat) (cursor : Cursor) :
    (cursor.skip count).rest.length ≤ cursor.rest.length := by
  induction count generalizing cursor with
  | zero => exact Nat.le_refl _
  | succ count ih =>
    refine Nat.le_trans (ih cursor.next) ?_
    cases h : cursor.rest with
    | nil => simp [next, h]
    | cons c rest =>
      rw [← h]
      exact Nat.le_of_lt (length_next h)

/-- Less text follows the place after one or more characters, if there is a next one. -/
theorem length_skip_succ {cursor : Cursor} {c : Char} {rest : List Char} (count : Nat)
    (h : cursor.rest = c :: rest) :
    (cursor.skip (count + 1)).rest.length < cursor.rest.length :=
  Nat.lt_of_le_of_lt (length_skip count cursor.next) (length_next h)

/-- Whether a marker between documents stands at a place, which has to begin a line. -/
def startsDocument (cursor : Cursor) : Bool :=
  cursor.column = 0 && startsMarker '-' cursor.rest

/-- Whether the marker of a document's end stands at a place, which has to begin a line. -/
def endsDocument (cursor : Cursor) : Bool :=
  cursor.column = 0 && startsMarker '.' cursor.rest

/-- Whether a document begins or ends at a place. -/
def atMarker (cursor : Cursor) : Bool :=
  cursor.startsDocument || cursor.endsDocument

end Cursor

end ApiCatalog.Yaml
