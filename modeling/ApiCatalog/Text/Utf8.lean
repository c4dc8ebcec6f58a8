set_option autoImplicit false

/-!
# UTF-8

Bytes are read as characters, and a fault is reported at the character where it lies.

## Main definitions

* `ApiCatalog.Text.Utf8Fault`: where the bytes stop being UTF-8, and in which way.
* `ApiCatalog.Text.decodeUtf8`: the characters of a byte sequence, or its first fault.
* `ApiCatalog.Text.encodeUtf8`: the bytes of a text.
* `ApiCatalog.Text.byteLength`: how many they are.
-/

namespace ApiCatalog.Text

/-- The first place where a byte sequence is not UTF-8. -/
inductive Utf8Fault where
  /-- `count` bytes from `index` on begin a character that the byte after them cannot continue. -/
  | invalid (count index : Nat)
  /-- The bytes end in the middle of the character that begins at `index`. -/
  | incomplete (index : Nat)
deriving DecidableEq, Repr

/-- The wording of a fault. -/
def Utf8Fault.message : Utf8Fault → String
  | .invalid count index =>
    "invalid utf-8 sequence of " ++ toString count ++ " bytes from index " ++ toString index
  | .incomplete index => "incomplete utf-8 byte sequence from index " ++ toString index

/-- What a first byte promises: the payload bits it carries, the range of the second byte, and
how many bytes follow the second. The ranges rule out overlong forms, surrogates and code points
above `0x10FFFF`. -/
def leadByte (b : UInt8) : Option (Nat × (UInt8 × UInt8) × Nat) :=
  if 0xC2 ≤ b && b ≤ 0xDF then some (b.toNat - 0xC0, (0x80, 0xBF), 0)
  else if b = 0xE0 then some (0, (0xA0, 0xBF), 1)
  else if b = 0xED then some (0xD, (0x80, 0x9F), 1)
  else if 0xE1 ≤ b && b ≤ 0xEF then some (b.toNat - 0xE0, (0x80, 0xBF), 1)
  else if b = 0xF0 then some (0, (0x90, 0xBF), 2)
  else if 0xF1 ≤ b && b ≤ 0xF3 then some (b.toNat - 0xF0, (0x80, 0xBF), 2)
  else if b = 0xF4 then some (4, (0x80, 0x8F), 2)
  else none

/-- A character that has begun: the bits read so far, the range of the next byte, the number of
bytes after it, and the number of bytes already read. -/
structure OpenCharacter where
  bits : Nat
  range : UInt8 × UInt8
  following : Nat
  consumed : Nat

/-- Reads bytes from `index` on, `current` being the character that has begun, if any. -/
def decodeUtf8From : Nat → Option OpenCharacter → List UInt8 → Except Utf8Fault (List Char)
  | _, none, [] => .ok []
  | index, some c, [] => .error (.incomplete (index - c.consumed))
  | index, none, b :: rest =>
    if b < 0x80 then
      (decodeUtf8From (index + 1) none rest).map (Char.ofNat b.toNat :: ·)
    else match leadByte b with
      | none => .error (.invalid 1 index)
      | some (bits, range, following) =>
        decodeUtf8From (index + 1) (some ⟨bits, range, following, 1⟩) rest
  | index, some c, b :: rest =>
    if c.range.1 ≤ b && b ≤ c.range.2 then
      let bits := c.bits * 64 + (b.toNat - 0x80)
      match c.following with
      | 0 => (decodeUtf8From (index + 1) none rest).map (Char.ofNat bits :: ·)
      | n + 1 => decodeUtf8From (index + 1) (some ⟨bits, (0x80, 0xBF), n, c.consumed + 1⟩) rest
    else .error (.invalid c.consumed (index - c.consumed))

/-- The characters that a byte sequence spells in UTF-8, or its first fault. -/
def decodeUtf8 (bytes : List UInt8) : Except Utf8Fault (List Char) :=
  decodeUtf8From 0 none bytes

/-- The UTF-8 bytes of a text. -/
def encodeUtf8 (text : String) : List UInt8 :=
  text.toUTF8.toList

/-- How many bytes a text has in UTF-8. -/
def byteLength : List Char → Nat
  | [] => 0
  | c :: rest => c.utf8Size + byteLength rest

end ApiCatalog.Text
