import ApiCatalog.Text.Decimal

set_option autoImplicit false

/-!
# Number literals

The grammar of JSON's number literals. A literal is evaluated in doubles, as the product of its
leading digits and a power of ten, and it is refused if that product is infinite.

## Main definitions

* `ApiCatalog.Json.decimal?`: a number literal taken apart.
* `ApiCatalog.Json.readNumeral`: a maximal run of number characters, checked.
-/

namespace ApiCatalog.Json

open Text

/-- Why a text is not JSON: it stops too early, or it goes on with something that is not allowed. -/
inductive Fault where
  | endOfInput
  | malformed
deriving DecidableEq, Repr

/-- Whether characters are followed by an end or by something that cannot go on. -/
def missing : List Char → Fault
  | [] => .endOfInput
  | _ :: _ => .malformed

/-- Splits off the exponent part, the last one of a literal. -/
def readExponent (whole fraction : List Char) : List Char → Except Fault Decimal
  | [] => .ok { whole, fraction }
  | c :: rest =>
    if c = 'e' || c = 'E' then
      let (exponentNegative, digits) := match rest with
        | '-' :: more => (true, more)
        | '+' :: more => (false, more)
        | more => (false, more)
      let tail := digits.dropWhile Char.isDigit
      if (digits.takeWhile Char.isDigit).isEmpty then .error (missing tail)
      else if tail.isEmpty then .ok { whole, fraction, exponentNegative, exponent := digits }
      else .error .malformed
    else .error .malformed

/-- Splits off the fraction and the exponent. -/
def readFraction (whole : List Char) : List Char → Except Fault Decimal
  | '.' :: rest =>
    let digits := rest.takeWhile Char.isDigit
    let tail := rest.dropWhile Char.isDigit
    if digits.isEmpty then .error (missing tail)
    else readExponent whole digits tail
  | rest => readExponent whole [] rest

/-- Splits a literal after its sign: a whole part without needless zeros, and the rest. -/
def readWhole (literal : List Char) : Except Fault Decimal :=
  let digits := literal.takeWhile Char.isDigit
  let tail := literal.dropWhile Char.isDigit
  match digits with
  | [] => .error (missing tail)
  | d :: more => if d = '0' && !more.isEmpty then .error .malformed
      else readFraction digits tail

/-- A number literal taken apart; its sign is left away. -/
def decimal? : List Char → Except Fault Decimal
  | '-' :: rest => readWhole rest
  | literal => readWhole literal

/-- Checks a maximal run of number characters; `atEnd` tells whether the text ends with it. -/
def readNumeral (literal : List Char) (atEnd : Bool) : Except Fault String :=
  match decimal? literal with
  | .error .endOfInput => .error (if atEnd then .endOfInput else .malformed)
  | .error .malformed => .error .malformed
  | .ok decimal =>
    if decimal.productIsInfinite then .error .malformed else .ok (String.ofList literal)

end ApiCatalog.Json
