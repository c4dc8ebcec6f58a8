set_option autoImplicit false

/-!
# Characters of YAML

Which characters may stand in a YAML text, which of them separate words and lines, and what a run
of line breaks inside a scalar stands for.

## Main definitions

* `ApiCatalog.Yaml.isAllowed`: the characters of YAML.
* `ApiCatalog.Yaml.normalizeBreaks`: a text in which most line breaks are written alike.
* `ApiCatalog.Yaml.isBreak`, `ApiCatalog.Yaml.isSpace`: what ends lines and what separates words.
* `ApiCatalog.Yaml.foldBreaks`: what line breaks between two words stand for.
-/

namespace ApiCatalog.Yaml

/-- Whether a character may stand in a YAML text. -/
def isAllowed (c : Char) : Bool :=
  let n := c.toNat
  n = 0x09 || n = 0x0A || n = 0x0D || (0x20 ≤ n && n ≤ 0x7E) || n = 0x85 ||
    (0xA0 ≤ n && n ≤ 0xFFFD) || 0x10000 ≤ n

/-- A text in which the line breaks that mean no more than that are all written as line feeds. -/
def normalizeBreaks : List Char → List Char
  | '\r' :: '\n' :: rest => '\n' :: normalizeBreaks rest
  | c :: rest => (if c = '\r' || c.toNat = 0x85 then '\n' else c) :: normalizeBreaks rest
  | [] => []

/-- Whether a character ends a line of a normalized text. The separators of lines and of paragraphs
do so too, but keep their meaning inside a scalar. -/
def isBreak (c : Char) : Bool :=
  c = '\n' || c.toNat = 0x2028 || c.toNat = 0x2029

/-- Whether a character separates words within a line. -/
def isSpace (c : Char) : Bool :=
  c = ' ' || c = '\t'

/-- Whether a character separates words or lines. -/
def isBlank (c : Char) : Bool :=
  isSpace c || isBreak c

/-- Whether a text begins with a blank, or is empty. -/
def startsBlank : List Char → Bool
  | [] => true
  | c :: _ => isBlank c

/-- Whether a text begins with a marker between documents: three equal characters and a blank. -/
def startsMarker (mark : Char) (text : List Char) : Bool :=
  text.take 3 = [mark, mark, mark] && startsBlank (text.drop 3)

/-- Whether a character delimits collections in flow style. -/
def isFlowIndicator (c : Char) : Bool :=
  c = ',' || c = '[' || c = ']' || c = '{' || c = '}'

/-- What the line breaks between two words stand for: a single line feed is a space, and one that
is followed by further breaks stands for nothing beside them. -/
def foldBreaks : List Char → List Char
  | ['\n'] => [' ']
  | '\n' :: more => more
  | breaks => breaks

end ApiCatalog.Yaml
