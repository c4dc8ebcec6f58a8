import ApiCatalog.Data.Basic
import ApiCatalog.Text.Decimal

set_option autoImplicit false

/-!
# The type of a plain scalar

A plain scalar is null, a truth value, an integer, a float or a text, by the way it is written.
Integers that need more than 64 bits have no place in a tree, unless they are so large that they
are read as floats.

## Main definitions

* `Data.isNullWord`: the spellings of null.
* `Data.ofPlain?`: a plain scalar with its type.
* `Data.settle?`: a tree all of whose plain scalars have their types.
-/

namespace ApiCatalog.Data

/-- Whether a plain scalar spells null. -/
def isNullWord (content : String) : Bool :=
  ["", "~", "null", "Null", "NULL"].contains content

/-- The truth value that a plain scalar spells. -/
def boolWord? (content : String) : Option Bool :=
  if ["true", "True", "TRUE"].contains content then some true
  else if ["false", "False", "FALSE"].contains content then some false
  else none

/-! ## Integers -/

/-- Whether digits begin with a zero that is not the whole of them. -/
def hasNeedlessZero : List Char → Bool
  | '0' :: c :: rest => (c :: rest).all Char.isDigit
  | _ => false

/-- The magnitude of an integer after its sign. -/
def magnitude? : List Char → Option Nat
  | '0' :: 'x' :: digits => Text.number? 16 digits
  | '0' :: 'o' :: digits => Text.number? 8 digits
  | '0' :: 'b' :: digits => Text.number? 2 digits
  | digits => if hasNeedlessZero digits then none else Text.number? 10 digits

/-- What an integer of some magnitude is: a number if it has 64 bits, which takes magnitudes up to
`narrow`, and nothing that a tree could hold if it has up to 128 bits, which takes magnitudes up to
`wide`. Beyond that it is not taken for an integer at all. -/
def integer? (narrow wide : Nat) (number : Nat → Number) (n : Nat) : Option (Option Data) :=
  if n ≤ narrow then some (some (.number (number n)))
  else if n ≤ wide then some none
  else none

/-- An integer without a minus sign. -/
def unsigned? (digits : List Char) : Option (Option Data) :=
  (magnitude? digits).bind (integer? (UInt64.size - 1) ((1 <<< 128) - 1) .natural)

/-- The integer that a plain scalar spells. -/
def integerWord? : List Char → Option (Option Data)
  | '-' :: digits =>
    (magnitude? digits).bind (integer? (UInt64.size / 2) (1 <<< 127) .negative)
  | '+' :: digits => unsigned? digits
  | digits => unsigned? digits

/-! ## Floats -/

/-- A decimal number after its sign: digits on at least one side of an optional point, and an
optional exponent. -/
def decimal? (content : List Char) : Option Text.Decimal :=
  let whole := content.takeWhile Char.isDigit
  let rest := content.dropWhile Char.isDigit
  let (fraction, rest) := match rest with
    | '.' :: more => (more.takeWhile Char.isDigit, more.dropWhile Char.isDigit)
    | more => ([], more)
  if whole.isEmpty && fraction.isEmpty then none
  else match rest with
  | [] => some { whole, fraction }
  | c :: more =>
    let (exponentNegative, exponent) := match more with
      | '+' :: digits => (false, digits)
      | '-' :: digits => (true, digits)
      | digits => (false, digits)
    if (c = 'e' || c = 'E') && !exponent.isEmpty && exponent.all Char.isDigit then
      some { whole, fraction, exponentNegative, exponent }
    else none

/-- The spellings of what is not finite. -/
def nonFiniteWords : List String :=
  [".inf", ".Inf", ".INF", "+.inf", "+.Inf", "+.INF", "-.inf", "-.Inf", "-.INF", ".nan", ".NaN",
    ".NAN"]

/-- The float that a plain scalar spells. A decimal number that is too large for one is none. -/
def floatWord? (content : String) : Option Number :=
  let unsigned := match content.toList with
    | '+' :: rest => rest
    | '-' :: rest => rest
    | rest => rest
  if nonFiniteWords.contains content then some (.float false)
  else if hasNeedlessZero unsigned then none
  else (decimal? unsigned).bind fun decimal =>
    if decimal.isInfinite then none else some (.float true)

/-! ## Types -/

/-- A plain scalar with its type. -/
def ofPlain? (content : String) : Option Data :=
  if isNullWord content then some .null
  else match boolWord? content with
  | some value => some (.bool value)
  | none =>
    match integerWord? content.toList with
    | some integer => integer
    | none =>
      match floatWord? content with
      | some value => some (.number value)
      | none => some (.text content)

mutual

/-- A tree in which every plain scalar has its type. -/
def settle? : Data → Option Data
  | .plain content => ofPlain? content
  | .list items => (settleItems? items).map .list
  | .record members => (settleMembers? members).map .record
  | .null => some .null
  | .bool value => some (.bool value)
  | .number value => some (.number value)
  | .text content => some (.text content)

/-- Trees in which every plain scalar has its type. -/
def settleItems? : List Data → Option (List Data)
  | [] => some []
  | item :: rest => do
    let item ← settle? item
    let rest ← settleItems? rest
    return item :: rest

/-- Members in whose keys and values every plain scalar has its type. -/
def settleMembers? : List (Data × Data) → Option (List (Data × Data))
  | [] => some []
  | (key, value) :: rest => do
    let key ← settle? key
    let value ← settle? value
    let rest ← settleMembers? rest
    return (key, value) :: rest

end

end ApiCatalog.Data
