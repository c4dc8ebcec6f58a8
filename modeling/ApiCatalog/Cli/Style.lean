import ApiCatalog.Cli.Arguments
import ApiCatalog.Diagnostic

set_option autoImplicit false

/-!
# Colours

The colours of terminal output, for dark and for light backgrounds.

## Main definitions

* `Cli.Palette`: the colours of a theme.
* `Cli.choosePalette`: whether and in which palette output is coloured.
* `Cli.paint`: a text in a colour.
-/

namespace ApiCatalog.Cli

/-- A colour of text. -/
inductive Color where
  /-- The colour of the terminal. -/
  | plain
  | rgb (red green blue : Nat)
deriving DecidableEq, Repr

/-- The background that colours are chosen for. -/
inductive Theme where
  | dark
  | light
deriving DecidableEq, Repr

/-- The colours of a theme by their use. -/
structure Palette where
  timestamp : Color
  primary : Color
  accent : Color
  label : Color
  value : Color
  success : Color
  schema : Color
deriving DecidableEq, Repr

namespace Palette

/-- The colours for dark backgrounds. -/
def dark : Palette where
  timestamp := .rgb 118 166 166
  primary := .rgb 191 126 4
  accent := .rgb 166 84 55
  label := .rgb 217 164 4
  value := .rgb 242 211 56
  success := .rgb 118 166 166
  schema := .rgb 196 140 98

/-- The colours for light backgrounds. -/
def light : Palette where
  timestamp := .rgb 92 62 38
  primary := .rgb 70 42 25
  accent := .rgb 211 99 70
  label := .rgb 176 103 66
  value := .rgb 199 146 76
  success := .rgb 34 142 90
  schema := .rgb 40 111 170

/-- No colours at all. -/
def uncoloured : Palette :=
  ⟨.plain, .plain, .plain, .plain, .plain, .plain, .plain⟩

/-- The colour of a kind of diagnostic. -/
def diagnostic (palette : Palette) : DiagnosticKind → Color
  | .structuralPath => palette.accent
  | .schemaResolution => palette.schema

end Palette

/-- What a terminal says about itself. -/
structure Terminal where
  /-- Whether output goes to a terminal at all. -/
  isTerminal : Bool := false
  /-- Its colours as numbers, the background last, separated by semicolons. -/
  colors : Option String := none
deriving DecidableEq, Repr

/-- The value of a text that is a number below 256. -/
def colorIndex? (text : List Char) : Option Nat :=
  let digits := match text with
    | '+' :: rest => rest
    | rest => rest
  if digits.isEmpty || !digits.all Char.isDigit then none
  else
    let n := digits.foldl (fun n c => n * 10 + (c.toNat - '0'.toNat)) 0
    if n < 256 then some n else none

/-- The theme that fits a terminal: its background is light if its number is 8 or more. -/
def Terminal.theme (terminal : Terminal) : Theme :=
  let background := terminal.colors.bind fun colors =>
    colorIndex? (colors.toList.reverse.takeWhile (· ≠ ';')).reverse
  match background with
  | some index => if 8 ≤ index then .light else .dark
  | none => .dark

/-- The palette that is asked for. -/
def choosePalette (terminal : Terminal) (arguments : Arguments) : Palette :=
  let enabled := match arguments.color.getD .auto with
    | .always => true
    | .never => false
    | .auto => terminal.isTerminal
  let theme : Theme := match arguments.theme.getD .auto with
    | .dark => .dark
    | .light => .light
    | .auto => terminal.theme
  if !enabled then .uncoloured
  else match theme with
    | .dark => .dark
    | .light => .light

/-- The control sequence that begins a colour. -/
def Color.code : Color → String
  | .plain => "\x1b[39m"
  | .rgb red green blue =>
    "\x1b[38;2;" ++ toString red ++ ";" ++ toString green ++ ";" ++ toString blue ++ "m"

/-- A text in a colour, after which the terminal has its own colour again. -/
def paint (color : Color) (text : String) : String :=
  color.code ++ text ++ "\x1b[39m"

end ApiCatalog.Cli
