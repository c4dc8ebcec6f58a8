import ApiCatalog.Json.Numeral
import ApiCatalog.Text.Digits
import ApiCatalog.Text.Utf8

set_option autoImplicit false

/-!
# JSON tokens

The tokens of a JSON text, read from its bytes. A token whose own text is at fault carries that
fault, so that a reader that would refuse the token anyway never looks at it.

## Main definitions

* `ApiCatalog.Json.Token`: brackets, separators, words, numbers and strings.
* `ApiCatalog.Json.scanText`: the bytes of a string literal, with its escapes undone.
* `ApiCatalog.Json.tokens`: the tokens of a text, up to the first that is at fault.

## Main results

* `ApiCatalog.Json.nextToken_length`: each token takes at least one byte.
-/

namespace ApiCatalog.Json

/-- The simple values that are written as words. -/
inductive Word where
  | null
  | true
  | false
deriving DecidableEq, Repr

/-- A lexical unit of a JSON text. -/
inductive Token where
  | openArray
  | closeArray
  | openObject
  | closeObject
  | comma
  | colon
  | word (word : Except Fault Word)
  | number (literal : Except Fault String)
  | text (text : Except Fault String)
  | stray

/-- The character of a byte that is taken for one by itself. -/
def byteChar (b : UInt8) : Char :=
  Char.ofNat b.toNat

/-- The value of four hexadecimal digits. -/
def hexUnit? (a b c d : UInt8) : Option Nat :=
  Text.number? 16 [byteChar a, byteChar b, byteChar c, byteChar d]

/-- The byte that a one-letter escape stands for. -/
def escapedByte? (b : UInt8) : Option UInt8 :=
  if b = 0x22 || b = 0x5C || b = 0x2F then some b
  else if b = 0x62 then some 0x08
  else if b = 0x66 then some 0x0C
  else if b = 0x6E then some 0x0A
  else if b = 0x72 then some 0x0D
  else if b = 0x74 then some 0x09
  else none

/-- The UTF-8 bytes of a code point, last byte first. -/
def reversedBytes (codePoint : Nat) : List UInt8 :=
  (Text.encodeUtf8 (String.singleton (Char.ofNat codePoint))).reverse

/-- The code unit that four hexadecimal digits stand for, and the bytes after them. -/
def readUnit : List UInt8 → Except Fault (Nat × List UInt8)
  | a :: b :: c :: d :: rest =>
    match hexUnit? a b c d with
    | some unit => .ok (unit, rest)
    | none => .error .malformed
  | _ => .error .endOfInput

/-- Skips the byte `expected`. -/
def skipByte (expected : UInt8) : List UInt8 → Except Fault (List UInt8)
  | [] => .error .endOfInput
  | b :: rest => if b = expected then .ok rest else .error .malformed

/-- The code point whose first unit is `unit`, a surrogate, and the bytes after the escape of its
second unit. -/
def readSecondUnit (unit : Nat) (input : List UInt8) : Except Fault (Nat × List UInt8) := do
  let rest ← skipByte 0x5C input
  let rest ← skipByte 0x75 rest
  let (low, rest) ← readUnit rest
  if low < 0xDC00 || 0xE000 ≤ low then throw .malformed
  else return (0x10000 + (unit - 0xD800) * 0x400 + (low - 0xDC00), rest)

/-- The code point of an escape in hexadecimal digits, read after its letter, and the bytes after
it. A code point beyond 16 bits is written as two units, of which neither may stand alone. -/
def readCodePoint (input : List UInt8) : Except Fault (Nat × List UInt8) := do
  let (unit, rest) ← readUnit input
  if unit < 0xD800 || 0xE000 ≤ unit then return (unit, rest)
  else if 0xDC00 ≤ unit then throw .malformed
  else readSecondUnit unit rest

/-- What an escape stands for, read after its backslash: bytes in reverse, and the bytes after the
escape. -/
def readEscape : List UInt8 → Except Fault (List UInt8 × List UInt8)
  | [] => .error .endOfInput
  | letter :: rest =>
    if letter = 0x75 then do
      let (point, rest) ← readCodePoint rest
      return (reversedBytes point, rest)
    else
      match escapedByte? letter with
      | some byte => .ok ([byte], rest)
      | none => .error .malformed

/-- A sequence of two steps succeeds only if both do. -/
theorem ok_of_bind_ok {α β : Type} {action : Except Fault α} {next : α → Except Fault β} {b : β}
    (h : action >>= next = .ok b) : ∃ a, action = .ok a ∧ next a = .ok b := by
  cases action with
  | error fault => cases h
  | ok a => exact ⟨a, rfl, h⟩

/-- What is left after a code unit is no longer than the input. -/
theorem readUnit_length {input rest : List UInt8} {unit : Nat}
    (h : readUnit input = .ok (unit, rest)) : rest.length ≤ input.length := by
  unfold readUnit at h
  split at h
  · split at h
    · cases h
      simp only [List.length_cons]
      omega
    · cases h
  · cases h

/-- What is left after an expected byte is no longer than the input. -/
theorem skipByte_length {expected : UInt8} {input rest : List UInt8}
    (h : skipByte expected input = .ok rest) : rest.length ≤ input.length := by
  unfold skipByte at h
  split at h
  · cases h
  · split at h
    · cases h
      exact Nat.le_succ _
    · cases h

/-- What is left after a second code unit is no longer than the input. -/
theorem readSecondUnit_length {unit point : Nat} {input rest : List UInt8}
    (h : readSecondUnit unit input = .ok (point, rest)) : rest.length ≤ input.length := by
  unfold readSecondUnit at h
  obtain ⟨slash, hslash, h⟩ := ok_of_bind_ok h
  obtain ⟨letter, hletter, h⟩ := ok_of_bind_ok h
  obtain ⟨⟨low, after⟩, hlow, h⟩ := ok_of_bind_ok h
  have hle := Nat.le_trans (readUnit_length hlow)
    (Nat.le_trans (skipByte_length hletter) (skipByte_length hslash))
  dsimp only at h
  split at h
  · cases h
  · exact (Prod.mk.inj (Except.ok.inj h)).2 ▸ hle

/-- What is left after a code point is no longer than the input. -/
theorem readCodePoint_length {input rest : List UInt8} {point : Nat}
    (h : readCodePoint input = .ok (point, rest)) : rest.length ≤ input.length := by
  unfold readCodePoint at h
  obtain ⟨⟨unit, after⟩, hunit, h⟩ := ok_of_bind_ok h
  have hle := readUnit_length hunit
  dsimp only at h
  split at h
  · cases h
    exact hle
  · split at h
    · cases h
    · exact Nat.le_trans (readSecondUnit_length h) hle

/-- What is left after an escape is shorter than the input. -/
theorem readEscape_length {input bytes rest : List UInt8}
    (h : readEscape input = .ok (bytes, rest)) : rest.length < input.length := by
  unfold readEscape at h
  split at h
  · cases h
  · split at h
    · obtain ⟨⟨point, after⟩, hpoint, h⟩ := ok_of_bind_ok h
      cases h
      exact Nat.lt_succ_of_le (readCodePoint_length hpoint)
    · split at h
      · cases h
        exact Nat.lt_succ_self _
      · cases h

/-- Reads a string literal after its opening quote: the bytes of the string, `done` being those
already read in reverse, and the bytes after the closing quote. -/
def scanText (done input : List UInt8) : Except Fault (List UInt8 × List UInt8) :=
  match input with
  | [] => .error .endOfInput
  | b :: rest =>
    if b = 0x22 then .ok (done.reverse, rest)
    else if b < 0x20 then .error .malformed
    else if b ≠ 0x5C then scanText (b :: done) rest
    else
      match _h : readEscape rest with
      | .error fault => .error fault
      | .ok (bytes, after) => scanText (bytes ++ done) after
termination_by input.length
decreasing_by
  · exact Nat.lt_succ_self _
  · exact Nat.lt_succ_of_lt (readEscape_length _h)

/-- What is left after a string is shorter than the input. -/
theorem scanText_length {done input text rest : List UInt8}
    (h : scanText done input = .ok (text, rest)) : rest.length < input.length := by
  fun_induction scanText done input with
  | case1 => cases h
  | case2 =>
    cases h
    exact Nat.lt_succ_self _
  | case3 => cases h
  | case4 _ _ _ _ _ _ ih => exact Nat.lt_succ_of_lt (ih h)
  | case5 => cases h
  | case6 done b more _ _ _ bytes after heq ih =>
    exact Nat.lt_succ_of_lt (Nat.lt_trans (ih h) (readEscape_length heq))

/-- A string token from the bytes after its opening quote, with the bytes after it. -/
def textToken (input : List UInt8) : Token × List UInt8 :=
  match scanText [] input with
  | .error fault => (.text (.error fault), [])
  | .ok (bytes, rest) =>
    match Text.decodeUtf8 bytes with
    | .ok chars => (.text (.ok (String.ofList chars)), rest)
    | .error _ => (.text (.error .malformed), [])

/-- What is left after a string token is no longer than the input. -/
theorem textToken_length (input : List UInt8) : (textToken input).2.length ≤ input.length := by
  unfold textToken
  split
  · simp
  · rename_i h
    split
    · exact Nat.le_of_lt (scanText_length h)
    · simp

/-- Whether a byte may stand in a number literal. -/
def isNumeralByte (b : UInt8) : Bool :=
  (0x30 ≤ b && b ≤ 0x39) || b = 0x2B || b = 0x2D || b = 0x2E || b = 0x45 || b = 0x65

/-- A number token from the bytes it begins with, with the bytes after it. -/
def numberToken (input : List UInt8) : Token × List UInt8 :=
  let literal := (input.takeWhile isNumeralByte).map byteChar
  let rest := input.dropWhile isNumeralByte
  (.number (readNumeral literal rest.isEmpty), rest)

/-- Compares the letters of a word with the bytes that stand in its place. -/
def scanLetters (word : Word) : List UInt8 → List UInt8 → Token × List UInt8
  | [], rest => (.word (.ok word), rest)
  | _ :: _, [] => (.word (.error .endOfInput), [])
  | letter :: letters, b :: rest =>
    if b = letter then scanLetters word letters rest else (.word (.error .malformed), [])

/-- What is left after a word is no longer than the input. -/
theorem scanLetters_length (word : Word) (letters input : List UInt8) :
    (scanLetters word letters input).2.length ≤ input.length := by
  fun_induction scanLetters word letters input
  · exact Nat.le_refl _
  · exact Nat.zero_le _
  · rename_i ih
    exact Nat.le_succ_of_le ih
  · exact Nat.zero_le _

/-- Whether a byte is a blank between tokens. -/
def isBlankByte (b : UInt8) : Bool :=
  b = 0x20 || b = 0x0A || b = 0x0D || b = 0x09

/-- The token that begins with the byte `b`, with the bytes after it. -/
def tokenFrom (b : UInt8) (rest : List UInt8) : Token × List UInt8 :=
  if b = 0x5B then (.openArray, rest)
  else if b = 0x5D then (.closeArray, rest)
  else if b = 0x7B then (.openObject, rest)
  else if b = 0x7D then (.closeObject, rest)
  else if b = 0x2C then (.comma, rest)
  else if b = 0x3A then (.colon, rest)
  else if b = 0x22 then textToken rest
  else if b = 0x2D || (0x30 ≤ b && b ≤ 0x39) then numberToken (b :: rest)
  else if b = 0x6E then scanLetters .null [0x75, 0x6C, 0x6C] rest
  else if b = 0x74 then scanLetters .true [0x72, 0x75, 0x65] rest
  else if b = 0x66 then scanLetters .false [0x61, 0x6C, 0x73, 0x65] rest
  else (.stray, [])

/-- A number token takes at least the byte it begins with. -/
theorem numberToken_length {b : UInt8} (rest : List UInt8) (h : isNumeralByte b = true) :
    (numberToken (b :: rest)).2.length ≤ rest.length := by
  simp only [numberToken, List.dropWhile_cons, h, if_true]
  exact (List.dropWhile_sublist isNumeralByte).length_le

/-- A byte that begins a number literal may stand in one. -/
theorem isNumeralByte_of_starts {b : UInt8} (h : b = 0x2D || (0x30 ≤ b && b ≤ 0x39)) :
    isNumeralByte b = true := by
  simp only [isNumeralByte, Bool.or_eq_true, Bool.and_eq_true, decide_eq_true_eq] at h ⊢
  rcases h with h | h <;> simp [h]

/-- A bound on what two tokens leave holds of a choice between them. -/
theorem ite_length_le {c : Prop} [Decidable c] {x y : Token × List UInt8} {n : Nat}
    (hx : c → x.2.length ≤ n) (hy : y.2.length ≤ n) : (if c then x else y).2.length ≤ n := by
  by_cases h : c
  · rw [if_pos h]
    exact hx h
  · rw [if_neg h]
    exact hy

/-- What is left after a token is no longer than what follows its first byte. -/
theorem tokenFrom_length (b : UInt8) (rest : List UInt8) :
    (tokenFrom b rest).2.length ≤ rest.length := by
  have hle := Nat.le_refl rest.length
  unfold tokenFrom
  refine ite_length_le (fun _ => hle) (ite_length_le (fun _ => hle) (ite_length_le (fun _ => hle)
    (ite_length_le (fun _ => hle) (ite_length_le (fun _ => hle)
      (ite_length_le (fun _ => hle) ?_)))))
  refine ite_length_le (fun _ => textToken_length rest) (ite_length_le (fun h => ?_) ?_)
  · exact numberToken_length rest (isNumeralByte_of_starts h)
  · exact ite_length_le (fun _ => scanLetters_length _ _ rest)
      (ite_length_le (fun _ => scanLetters_length _ _ rest)
        (ite_length_le (fun _ => scanLetters_length _ _ rest) (Nat.zero_le _)))

/-- The next token and the bytes after it, or nothing when only blanks are left. -/
def nextToken (input : List UInt8) : Option (Token × List UInt8) :=
  match input.dropWhile isBlankByte with
  | [] => none
  | b :: rest => some (tokenFrom b rest)

/-- What is left after a token is shorter than the input. -/
theorem nextToken_length {input rest : List UInt8} {token : Token}
    (h : nextToken input = some (token, rest)) : rest.length < input.length := by
  unfold nextToken at h
  split at h
  · cases h
  · rename_i b more heq
    have hle := (List.dropWhile_sublist (l := input) isBlankByte).length_le
    have hlt := tokenFrom_length b more
    rw [heq, List.length_cons] at hle
    rw [Option.some.inj h] at hlt
    exact Nat.lt_of_lt_of_le (Nat.lt_succ_of_le hlt) hle

/-- The tokens of a text. Nothing is read after a token that is at fault. -/
def tokens (input : List UInt8) : List Token :=
  match _h : nextToken input with
  | none => []
  | some (token, rest) => token :: tokens rest
termination_by input.length
decreasing_by exact nextToken_length _h

end ApiCatalog.Json
