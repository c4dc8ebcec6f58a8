import ApiCatalog.Text.Digits

set_option autoImplicit false

/-!
# Configuration files

A configuration file is TOML that gives texts to the keys `input` and `output` and to nothing else.

## Main definitions

* `Cli.Config`: the two settings.
* `Cli.Config.ofText?`: the settings in a file, or none if it is anything else.
-/

namespace ApiCatalog.Cli

/-- The settings of a configuration file. -/
structure Config where
  input : Option String := none
  output : Option String := none
deriving DecidableEq, Repr

namespace Config

/-- Whether a character may stand in a comment or string. -/
def isPrintable (c : Char) : Bool :=
  c = '\t' || (0x20 ≤ c.toNat && c.toNat ≠ 0x7F)

/-- A text in which every line ends with the same character. -/
def joinBreaks : List Char → List Char
  | '\r' :: '\n' :: rest => '\n' :: joinBreaks rest
  | c :: rest => c :: joinBreaks rest
  | [] => []

/-- A text without the blanks it begins with. -/
def skipBlanks (text : List Char) : List Char :=
  text.dropWhile fun c => c = ' ' || c = '\t'

/-- An escape after its backslash: the character, and the text after it. -/
def escape? : List Char → Option (Char × List Char)
  | 'b' :: rest => some (Char.ofNat 8, rest)
  | 't' :: rest => some ('\t', rest)
  | 'n' :: rest => some ('\n', rest)
  | 'f' :: rest => some (Char.ofNat 12, rest)
  | 'r' :: rest => some ('\r', rest)
  | '"' :: rest => some ('"', rest)
  | '\\' :: rest => some ('\\', rest)
  | 'u' :: rest => (Text.codePoint? 4 rest).map fun c => (c, rest.drop 4)
  | 'U' :: rest => (Text.codePoint? 8 rest).map fun c => (c, rest.drop 8)
  | _ => none

/-- A backslash at the end of a line takes away the blanks and line breaks after it. -/
def continuation? (text : List Char) : Option (List Char) :=
  match skipBlanks text with
  | '\n' :: rest => some (rest.dropWhile fun c => c = ' ' || c = '\t' || c = '\n')
  | _ => none

/-- A string that ends with `quote`, after its opening quote; `done` is what has been read, in
reverse. With `escapes`, a backslash begins an escape. -/
def simpleString (quote : Char) (escapes : Bool) :
    Nat → List Char → List Char → Option (String × List Char)
  | 0, _, _ => none
  | _ + 1, _, [] => none
  | steps + 1, done, c :: rest =>
    if c = quote then some (String.ofList done.reverse, rest)
    else if escapes && c = '\\' then
      match escape? rest with
      | some (char, rest) => simpleString quote escapes steps (char :: done) rest
      | none => none
    else if isPrintable c then simpleString quote escapes steps (c :: done) rest
    else none

/-- A string that ends with three of `quote`, up to two more of which belong to it, after its
opening quotes. -/
def longString (quote : Char) (escapes : Bool) :
    Nat → List Char → List Char → Option (String × List Char)
  | 0, _, _ => none
  | _ + 1, _, [] => none
  | steps + 1, done, c :: rest =>
    if c = quote && rest.take 2 = [quote, quote] then
      let more := ((rest.drop 2).takeWhile (· = quote)).take 2
      some (String.ofList (more ++ done).reverse, (rest.drop 2).drop more.length)
    else if escapes && c = '\\' then
      match continuation? rest with
      | some rest => longString quote escapes steps done rest
      | none =>
        match escape? rest with
        | some (char, rest) => longString quote escapes steps (char :: done) rest
        | none => none
    else if c = '\n' || isPrintable c then longString quote escapes steps (c :: done) rest
    else none

/-- A text without a line break at its beginning. -/
def dropBreak : List Char → List Char
  | '\n' :: rest => rest
  | rest => rest

/-- A string of any kind, and the text after it. -/
def string? (text : List Char) : Option (String × List Char) :=
  match text with
  | '"' :: '"' :: '"' :: rest => longString '"' true (text.length + 1) [] (dropBreak rest)
  | '\'' :: '\'' :: '\'' :: rest => longString '\'' false (text.length + 1) [] (dropBreak rest)
  | '"' :: rest => simpleString '"' true (text.length + 1) [] rest
  | '\'' :: rest => simpleString '\'' false (text.length + 1) [] rest
  | _ => none

/-- Whether a character may stand in a key without quotes. -/
def isBareKeyChar (c : Char) : Bool :=
  c.isAlphanum || c = '_' || c = '-'

/-- A key, and the text after it. -/
def key? (text : List Char) : Option (String × List Char) :=
  match text with
  | '"' :: rest => simpleString '"' true (text.length + 1) [] rest
  | '\'' :: rest => simpleString '\'' false (text.length + 1) [] rest
  | _ =>
    let name := text.takeWhile isBareKeyChar
    if name.isEmpty then none else some (String.ofList name, text.dropWhile isBareKeyChar)

/-- The text after the end of a line on which only blanks and a comment are left. -/
def lineEnd? (text : List Char) : Option (List Char) :=
  match skipBlanks text with
  | [] => some []
  | '\n' :: rest => some rest
  | '#' :: rest =>
    let comment := rest.takeWhile (· ≠ '\n')
    if comment.all isPrintable then some ((rest.dropWhile (· ≠ '\n')).drop 1) else none
  | _ => none

/-- Gives a key its value; each key may be given one once. -/
def set? (config : Config) (key value : String) : Option Config :=
  if key = "input" && config.input.isNone then some { config with input := some value }
  else if key = "output" && config.output.isNone then some { config with output := some value }
  else none

/-- A key with its value, up to the end of the line. -/
def setting? (config : Config) (text : List Char) : Option (Config × List Char) := do
  let (key, rest) ← key? text
  match skipBlanks rest with
  | '=' :: rest =>
    let (value, rest) ← string? (skipBlanks rest)
    let rest ← lineEnd? rest
    let config ← config.set? key value
    return (config, rest)
  | _ => none

/-- Reads the lines of a file. The length of the text bounds their number. -/
def readLines : Nat → Config → List Char → Option Config
  | _, config, [] => some config
  | 0, _, _ :: _ => none
  | steps + 1, config, text =>
    match lineEnd? text with
    | some rest => readLines steps config rest
    | none => do
      let (config, rest) ← config.setting? (skipBlanks text)
      readLines steps config rest

/-- The settings that a file gives. -/
def ofText? (text : List Char) : Option Config :=
  let marked := match text with
    | c :: rest => if c.toNat = 0xFEFF then rest else text
    | [] => []
  readLines (marked.length + 1) {} (joinBreaks marked)

end Config

end ApiCatalog.Cli
