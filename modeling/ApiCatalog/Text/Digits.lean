set_option autoImplicit false

/-!
# Digits

Numbers that are written in digits of some base, and the characters whose code points are written
that way. Only ASCII digits and letters count.

## Main definitions

* `ApiCatalog.Text.digit?`: the value of a digit in a base.
* `ApiCatalog.Text.number?`: the value of a run of digits, the most significant one first.
* `ApiCatalog.Text.unsigned16?`: the value of an unsigned numeral of 16 bits.
* `ApiCatalog.Text.codePoint?`: the character of a code point in hexadecimal digits.
-/

namespace ApiCatalog.Text

/-- The value of a decimal digit. -/
def decimalDigit? (c : Char) : Option Nat :=
  if c.isDigit then some (c.toNat - '0'.toNat) else none

/-- The value of a letter as a digit beyond nine, in whatever case it is written. -/
def letterDigit? (c : Char) : Option Nat :=
  if c.isAlpha then some (c.toLower.toNat - 'a'.toNat + 10) else none

/-- The value of a digit in a base. -/
def digit? (base : Nat) (c : Char) : Option Nat :=
  ((decimalDigit? c).or (letterDigit? c)).filter (· < base)

/-- The value of a run of digits in a base; there has to be one digit at least. -/
def number? (base : Nat) (digits : List Char) : Option Nat :=
  if digits.isEmpty then none
  else digits.foldlM (fun n c => (digit? base c).map (n * base + ·)) 0

/-- The value of an unsigned decimal numeral that fits into 16 bits. A plus sign may stand in front
of the digits, and zeros may. -/
def unsigned16? (text : List Char) : Option Nat :=
  let digits := match text with
    | '+' :: digits => digits
    | digits => digits
  (number? 10 digits).filter (· < 0x10000)

/-- The character whose code point is written in the first `width` characters of a text. -/
def codePoint? (width : Nat) (text : List Char) : Option Char := do
  if text.length < width then none
  else
    let n ← number? 16 (text.take width)
    if n.isValidChar then some (Char.ofNat n) else none

end ApiCatalog.Text
