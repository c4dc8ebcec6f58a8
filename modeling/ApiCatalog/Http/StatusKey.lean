import ApiCatalog.Text.Blank
import ApiCatalog.Text.Digits
import ApiCatalog.Text.Utf8

set_option autoImplicit false

/-!
# Keys of responses

A response is declared for one status code, for a class of codes such as `4XX`, or for all codes
that nothing else is declared for.

## Main definitions

* `ApiCatalog.StatusKey`: the three forms of a key.
* `StatusKey.ofText?`: reading a key; blanks around it and letter case do not count.
* `StatusKey.text`: the canonical spelling.
* `StatusKey.le`: codes before classes before the default, each by number.
-/

namespace ApiCatalog

/-- What a response is declared for. -/
inductive StatusKey where
  /-- One status code. -/
  | code (value : Nat)
  /-- The codes with a given first digit. -/
  | range (leading : Nat)
  /-- Every code without a declaration of its own. -/
  | default
deriving DecidableEq, Repr

/-- A text is no key of a response. -/
structure InvalidStatusKey where
  text : String
deriving DecidableEq, Repr

/-- The wording of a refused key. -/
def InvalidStatusKey.message (error : InvalidStatusKey) : String :=
  "invalid response status key '" ++ error.text ++ "'"

namespace StatusKey

/-- A digit from 1 to 5 followed by two letters `x`, in whatever case, as a class of codes. -/
def range? : List Char → Option StatusKey
  | [digit, x, y] =>
    if '1' ≤ digit ∧ digit ≤ '5' ∧ x.toLower = 'x' ∧ y.toLower = 'x' then
      some (.range (digit.toNat - '0'.toNat))
    else none
  | _ => none

/-- A number from 100 to 599, written in three bytes, as a code. -/
def code? (word : List Char) : Option StatusKey := do
  let number ← Text.unsigned16? word
  if 100 ≤ number ∧ number ≤ 599 ∧ Text.byteLength word = 3 then some (.code number) else none

/-- The key that a text spells. -/
def ofText? (text : String) : Option StatusKey :=
  let word := Text.trim text.toList
  if word.map Char.toLower = ['d', 'e', 'f', 'a', 'u', 'l', 't'] then some .default
  else (range? word).or (code? word)

/-- The key that a text spells, or the complaint about it. -/
def ofText (text : String) : Except InvalidStatusKey StatusKey :=
  match ofText? text with
  | some key => .ok key
  | none => .error ⟨text⟩

/-- The canonical spelling of a key. -/
def text : StatusKey → String
  | .code value => toString value
  | .range leading => toString leading ++ "XX"
  | .default => "default"

/-- The order of keys: codes before classes before the default, each by number. -/
def le : StatusKey → StatusKey → Bool
  | .code a, .code b => a ≤ b
  | .code _, _ => true
  | .range _, .code _ => false
  | .range a, .range b => a ≤ b
  | .range _, .default => true
  | .default, .default => true
  | .default, _ => false

end StatusKey

end ApiCatalog
