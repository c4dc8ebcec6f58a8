set_option autoImplicit false

/-!
# Blank characters

The characters of Unicode's `White_Space` property, and the removal of them from both ends of a
text.

## Main definitions

* `ApiCatalog.Text.isBlank`: membership in `White_Space`.
* `ApiCatalog.Text.trim`: a text without its leading and trailing blanks.

## Main results

* `ApiCatalog.Text.trim_eq_nil_iff`: a text is trimmed to nothing exactly when all of it is blank.
-/

namespace ApiCatalog.Text

/-- The first and last code point of each run of `White_Space` characters. -/
def blankRanges : List (Nat × Nat) :=
  [(0x09, 0x0D), (0x20, 0x20), (0x85, 0x85), (0xA0, 0xA0), (0x1680, 0x1680), (0x2000, 0x200A),
    (0x2028, 0x2029), (0x202F, 0x202F), (0x205F, 0x205F), (0x3000, 0x3000)]

/-- Whether a character has the property `White_Space`. -/
def isBlank (c : Char) : Bool :=
  blankRanges.any fun range => range.1 ≤ c.toNat && c.toNat ≤ range.2

/-- A text without leading blanks. -/
def trimLeft (text : List Char) : List Char :=
  text.dropWhile isBlank

/-- A text without leading and trailing blanks. -/
def trim (text : List Char) : List Char :=
  (trimLeft (trimLeft text).reverse).reverse

/-- Whether nothing but blanks stands in a text. -/
def isBlankText (text : String) : Bool :=
  (trim text.toList).isEmpty

/-! ## Laws -/

/-- Without its leading blanks a text is empty exactly if it holds nothing but blanks. -/
theorem trimLeft_eq_nil_iff {text : List Char} :
    trimLeft text = [] ↔ ∀ c ∈ text, isBlank c = true := by
  induction text with
  | nil => simp [trimLeft]
  | cons c rest ih =>
    unfold trimLeft at ih ⊢
    by_cases h : isBlank c = true
    · simp [h, ih]
    · simp [h]

/-- Trimmed, a text is empty exactly if it holds nothing but blanks. -/
theorem trim_eq_nil_iff {text : List Char} :
    trim text = [] ↔ ∀ c ∈ text, isBlank c = true := by
  constructor
  · intro h
    have h' : trimLeft (trimLeft text).reverse = [] := by simpa [trim] using h
    rw [trimLeft_eq_nil_iff] at h'
    intro c hc
    by_cases hb : isBlank c = true
    · exact hb
    · have : c ∈ trimLeft text := by
        clear h h'
        induction text with
        | nil => cases hc
        | cons d rest ih =>
          unfold trimLeft at ih ⊢
          rw [List.dropWhile_cons]
          split
          · rename_i hd
            rcases List.mem_cons.1 hc with rfl | hc
            · exact absurd hd hb
            · exact ih hc
          · exact hc
      exact h' c (List.mem_reverse.2 this)
  · intro h
    have : trimLeft text = [] := trimLeft_eq_nil_iff.2 h
    rw [trim, this]
    rfl

end ApiCatalog.Text
