import ApiCatalog.Http.StatusKey
import Mathlib.Data.List.Forall2
import Mathlib.Data.List.TakeWhile

set_option autoImplicit false

/-!
# The spellings of status keys

Which texts spell a key of a response, said without reading them: a word in one of three forms, with
blanks around it. A text is read exactly if it spells a key, and the canonical spelling of a key is
read as that key.

## Main definitions

* `StatusKey.IsWord`: a word is one of the forms of a key.
* `StatusKey.SpelledBy`: a text spells a key.

## Main results

* `Text.trim_append_append`, `Text.exists_eq_append_trim_append`: trimming takes away the blanks
  around a text, and nothing else.
* `Text.number?_ten_eq_some_iff`: a decimal numeral is a run of digits.
* `StatusKey.ofText?_eq_some_iff`: reading accepts exactly the spellings.
* `StatusKey.ofText?_text`: the canonical spelling of a key that can be read is read as that key.
* `StatusKey.ofText_reads_spellings`: what reading accepts, refuses and gives back.
-/

namespace ApiCatalog

/-! ## Trimming -/

namespace Text

variable {before word after text : List Char}

/-- Blanks in front of a text that does not begin with one are taken away. -/
theorem trimLeft_append (hbefore : ∀ c ∈ before, isBlank c = true)
    (hfirst : ∀ c ∈ text.head?, isBlank c = false) : trimLeft (before ++ text) = text := by
  have hkept : text.dropWhile isBlank = text := by
    cases text with
    | nil => rfl
    | cons c rest => rw [List.dropWhile_cons, hfirst c rfl, if_neg Bool.false_ne_true]
  rw [trimLeft, List.dropWhile_append_of_pos hbefore, hkept]

/-- **Blanks around a word are taken away**, if it neither begins nor ends with one. -/
theorem trim_append_append (hbefore : ∀ c ∈ before, isBlank c = true)
    (hafter : ∀ c ∈ after, isBlank c = true) (hfirst : ∀ c ∈ word.head?, isBlank c = false)
    (hlast : ∀ c ∈ word.getLast?, isBlank c = false) : trim (before ++ (word ++ after)) = word := by
  cases word with
  | nil =>
    refine trim_eq_nil_iff.2 fun c hc => ?_
    rw [List.nil_append] at hc
    exact (List.mem_append.1 hc).elim (hbefore c) (hafter c)
  | cons first rest =>
    have hreversed : ∀ c ∈ (first :: rest).reverse.head?, isBlank c = false := by
      rwa [List.head?_reverse]
    rw [trim, trimLeft_append hbefore (by simpa using hfirst), List.reverse_append,
      trimLeft_append (by simpa using hafter) hreversed, List.reverse_reverse]

/-- **Nothing but blanks is taken away.** -/
theorem exists_eq_append_trim_append (text : List Char) :
    ∃ before after, text = before ++ (trim text ++ after) ∧
      (∀ c ∈ before, isBlank c = true) ∧ ∀ c ∈ after, isBlank c = true := by
  have hsplit : ∀ chars : List Char, chars.takeWhile isBlank ++ trimLeft chars = chars :=
    fun chars => List.takeWhile_append_dropWhile
  refine ⟨text.takeWhile isBlank, ((trimLeft text).reverse.takeWhile isBlank).reverse, ?_,
    fun c hc => List.mem_takeWhile_imp hc,
    fun c hc => List.mem_takeWhile_imp (List.mem_reverse.1 hc)⟩
  rw [trim, ← List.reverse_append, hsplit, List.reverse_reverse, hsplit]

end Text

/-! ## Letters and digits -/

/-- A letter is the small one that it has, or the capital one of that. -/
theorem eq_toLower_or_eq_toUpper (c : Char) : c = c.toLower ∨ c = c.toLower.toUpper := by
  by_cases hcapital : c.val ≥ 'A'.val ∧ c.val ≤ 'Z'.val
  · right
    have hcapitals : ∀ n < 91, 65 ≤ n → Char.ofNat n = (Char.ofNat n).toLower.toUpper := by decide
    have hchar := hcapitals c.toNat (Nat.lt_succ_of_le (UInt32.le_iff_toNat_le.1 hcapital.2))
      (UInt32.le_iff_toNat_le.1 hcapital.1)
    rwa [Char.ofNat_toNat] at hchar
  · left
    unfold Char.toLower
    rw [dif_neg hcapital]

/-- The code points of digits. -/
theorem isDigit_iff {c : Char} : c.isDigit = true ↔ 48 ≤ c.toNat ∧ c.toNat ≤ 57 := by
  rw [Char.isDigit, Bool.and_eq_true, decide_eq_true_eq, decide_eq_true_eq]
  exact and_congr UInt32.le_iff_toNat_le UInt32.le_iff_toNat_le

/-- Digits are not blank. -/
theorem isBlank_of_isDigit {c : Char} (h : c.isDigit = true) : Text.isBlank c = false := by
  have hbounds := isDigit_iff.1 h
  simp only [Text.isBlank, Text.blankRanges, List.any_eq_false, List.forall_mem_cons,
    List.not_mem_nil, false_implies, implies_true, and_true, Bool.and_eq_true, decide_eq_true_eq]
  omega

/-- Digits take one byte. -/
theorem utf8Size_of_isDigit {c : Char} (h : c.isDigit = true) : c.utf8Size = 1 := by
  have hbounds := isDigit_iff.1 h
  exact Char.utf8Size_eq_one_iff.2 (UInt32.le_iff_toNat_le.2 (show c.toNat ≤ 127 by omega))

/-- The value of a digit is less than ten. -/
theorem ofDigitChars_lt_ten {c : Char} (h : c.isDigit = true) : Nat.ofDigitChars 10 [c] 0 < 10 := by
  have hzero : '0'.toNat = 48 := rfl
  have hbounds := isDigit_iff.1 h
  rw [Nat.ofDigitChars_cons, Nat.ofDigitChars_nil, hzero]
  omega

/-! ## Numerals -/

namespace Text

variable {c : Char} {n : Nat} {digits : List Char}

/-- The digits of the decimal system are the ASCII digits. -/
theorem digit?_ten_eq_some_iff :
    digit? 10 c = some n ↔ c.isDigit = true ∧ c.toNat - '0'.toNat = n := by
  have hzero : '0'.toNat = 48 := rfl
  rw [digit?, Option.filter_eq_some_iff, decide_eq_true_eq, decimalDigit?]
  by_cases hdigit : c.isDigit = true
  · have hbounds := isDigit_iff.1 hdigit
    rw [if_pos hdigit, Option.some_or, Option.some_inj]
    constructor
    · rintro ⟨rfl, -⟩
      exact ⟨hdigit, rfl⟩
    · rintro ⟨-, rfl⟩
      exact ⟨rfl, by omega⟩
  · -- a letter stands for ten or more
    rw [if_neg hdigit, Option.none_or, letterDigit?]
    refine iff_of_false ?_ fun h => hdigit h.1
    rintro ⟨hletter, hten⟩
    split at hletter
    · cases hletter
      omega
    · cases hletter

/-- Reading digits after a number that they go on from. -/
theorem foldlM_digit?_eq_some_iff {start : Nat} :
    digits.foldlM (fun n c => (digit? 10 c).map (n * 10 + ·)) start = some n ↔
      (∀ c ∈ digits, c.isDigit = true) ∧ Nat.ofDigitChars 10 digits start = n := by
  induction digits generalizing start with
  | nil => simp
  | cons c rest ih =>
    simp only [List.foldlM_cons, Option.bind_eq_bind, Option.bind_eq_some_iff,
      Option.map_eq_some_iff, digit?_ten_eq_some_iff, ih, List.forall_mem_cons,
      Nat.ofDigitChars_cons, Nat.mul_comm 10]
    constructor
    · rintro ⟨_, ⟨_, ⟨hc, rfl⟩, rfl⟩, hrest, hvalue⟩
      exact ⟨⟨hc, hrest⟩, hvalue⟩
    · rintro ⟨⟨hc, hrest⟩, hvalue⟩
      exact ⟨_, ⟨_, ⟨hc, rfl⟩, rfl⟩, hrest, hvalue⟩

/-- Decimal numerals are runs of digits. -/
theorem number?_ten_eq_some_iff : number? 10 digits = some n ↔
    digits ≠ [] ∧ (∀ c ∈ digits, c.isDigit = true) ∧ Nat.ofDigitChars 10 digits 0 = n := by
  cases digits with
  | nil => simp [number?]
  | cons c rest =>
    rw [number?, List.isEmpty_cons, if_neg Bool.false_ne_true, foldlM_digit?_eq_some_iff]
    exact (and_iff_right (List.cons_ne_nil _ _)).symm

/-- An unsigned numeral is a run of digits, or one behind a plus sign. -/
theorem exists_of_unsigned16? (h : unsigned16? digits = some n) : ∃ run,
    (digits = run ∨ digits = '+' :: run) ∧ (∀ c ∈ run, c.isDigit = true) ∧
      Nat.ofDigitChars 10 run 0 = n := by
  have h' := (Option.filter_eq_some_iff.1 h).1
  split at h'
  · next run => exact ⟨run, .inr rfl, (number?_ten_eq_some_iff.1 h').2⟩
  · exact ⟨digits, .inl rfl, (number?_ten_eq_some_iff.1 h').2⟩

/-- A run of digits is read as its number, if that is not too large. -/
theorem unsigned16?_of_isDigit (hne : digits ≠ []) (h : ∀ c ∈ digits, c.isDigit = true)
    (hvalue : Nat.ofDigitChars 10 digits 0 = n) (hbound : n < 0x10000) :
    unsigned16? digits = some n := by
  unfold unsigned16?
  split
  · exact absurd (h _ List.mem_cons_self) (by decide)
  · exact Option.filter_eq_some_iff.2
      ⟨number?_ten_eq_some_iff.2 ⟨hne, h, hvalue⟩, decide_eq_true hbound⟩

/-- A run of digits has as many bytes as digits. -/
theorem byteLength_of_isDigit (h : ∀ c ∈ digits, c.isDigit = true) :
    byteLength digits = digits.length := by
  induction digits with
  | nil => rfl
  | cons c rest ih =>
    obtain ⟨hc, hrest⟩ := List.forall_mem_cons.1 h
    rw [byteLength, utf8Size_of_isDigit hc, ih hrest, List.length_cons, Nat.add_comm]

end Text

namespace StatusKey

variable {key : StatusKey} {word : List Char} {text : String}

/-! ## Spellings -/

/-- A word is one of the forms of a key: the word `default` in whatever case, a digit from 1 to 5
before two letters `x` in whatever case, or the three digits of a number from 100 to 599. -/
inductive IsWord : StatusKey → List Char → Prop
  | default {word : List Char}
      (letters : List.Forall₂ (fun c letter => c = letter ∨ c = letter.toUpper) word
        ['d', 'e', 'f', 'a', 'u', 'l', 't']) : IsWord .default word
  | range {leading : Nat} {digit x y : Char} (isDigit : digit.isDigit = true)
      (value : Nat.ofDigitChars 10 [digit] 0 = leading) (bounds : 1 ≤ leading ∧ leading ≤ 5)
      (first : x = 'x' ∨ x = 'X') (second : y = 'x' ∨ y = 'X') :
      IsWord (.range leading) [digit, x, y]
  | code {number : Nat} {word : List Char} (length : word.length = 3)
      (areDigits : ∀ c ∈ word, c.isDigit = true) (value : Nat.ofDigitChars 10 word 0 = number)
      (bounds : 100 ≤ number ∧ number ≤ 599) : IsWord (.code number) word

/-- A text spells a key: it is one of the forms of the key, with blanks around it. -/
def SpelledBy (key : StatusKey) (text : String) : Prop :=
  ∃ before word after, text.toList = before ++ (word ++ after) ∧
    (∀ c ∈ before, Text.isBlank c = true) ∧ (∀ c ∈ after, Text.isBlank c = true) ∧ key.IsWord word

/-- What is written in some case is what comes to the same in small letters. -/
theorem map_toLower_eq_iff {letters : List Char}
    (hletters : ∀ letter ∈ letters, letter.toLower = letter ∧ letter.toUpper.toLower = letter) :
    word.map Char.toLower = letters ↔
      List.Forall₂ (fun c letter => c = letter ∨ c = letter.toUpper) word letters := by
  constructor
  · rintro rfl
    clear hletters
    induction word with
    | nil => exact .nil
    | cons c rest ih => exact .cons (eq_toLower_or_eq_toUpper c) ih
  · intro h
    induction h with
    | nil => rfl
    | @cons c letter rest others hc _ ih =>
      obtain ⟨⟨hsmall, hcapital⟩, hothers⟩ := List.forall_mem_cons.1 hletters
      have hfirst : c.toLower = letter := by
        rcases hc with rfl | rfl
        · exact hsmall
        · exact hcapital
      rw [List.map_cons, hfirst, ih hothers]

/-- What stands in some case for letters that are not blank is not blank. -/
theorem not_isBlank_of_forall₂ {letters : List Char}
    (hletters : ∀ letter ∈ letters,
      Text.isBlank letter = false ∧ Text.isBlank letter.toUpper = false)
    (h : List.Forall₂ (fun c letter => c = letter ∨ c = letter.toUpper) word letters) :
    ∀ c ∈ word, Text.isBlank c = false := by
  induction h with
  | nil => exact fun _ hc => absurd hc List.not_mem_nil
  | cons hc _ ih =>
    obtain ⟨⟨hsmall, hcapital⟩, hothers⟩ := List.forall_mem_cons.1 hletters
    refine List.forall_mem_cons.2 ⟨?_, ih hothers⟩
    rcases hc with rfl | rfl
    · exact hsmall
    · exact hcapital

/-- The forms of keys have no blanks. -/
theorem IsWord.not_isBlank (h : key.IsWord word) : ∀ c ∈ word, Text.isBlank c = false := by
  cases h with
  | default letters =>
    exact not_isBlank_of_forall₂ (List.forall_iff_forall_mem.1 (by decide)) letters
  | range isDigit _ _ first second =>
    refine List.forall_mem_cons.2 ⟨isBlank_of_isDigit isDigit, ?_⟩
    rcases first with rfl | rfl <;> rcases second with rfl | rfl <;>
      exact List.forall_iff_forall_mem.1 (by decide)
  | code _ areDigits => exact fun c hc => isBlank_of_isDigit (areDigits c hc)

/-! ## Reading -/

/-- A letter `x` in some case. -/
theorem toLower_eq_x_iff {c : Char} : c.toLower = 'x' ↔ c = 'x' ∨ c = 'X' := by
  refine ⟨fun h => ?_, ?_⟩
  · have hc := eq_toLower_or_eq_toUpper c
    rwa [h] at hc
  · rintro (rfl | rfl) <;> rfl

/-- A word is read as a class of codes exactly if it is the form of one. -/
theorem range?_eq_some_iff :
    range? word = some key ↔ ∃ leading, key = .range leading ∧ key.IsWord word := by
  have hzero : '0'.toNat = 48 := rfl
  constructor
  · intro h
    unfold range? at h
    split at h
    · next digit x y =>
      split at h
      · next hform =>
        obtain ⟨hleast, hgreatest, hx, hy⟩ := hform
        cases h
        have hone : 49 ≤ digit.toNat := Char.le_def.1 hleast
        have hfive : digit.toNat ≤ 53 := Char.le_def.1 hgreatest
        refine ⟨_, rfl, .range (isDigit_iff.2 (by omega)) ?_ (by omega) (toLower_eq_x_iff.1 hx)
          (toLower_eq_x_iff.1 hy)⟩
        rw [Nat.ofDigitChars_cons, Nat.ofDigitChars_nil, Nat.mul_zero, Nat.zero_add]
      · cases h
    · cases h
  · rintro ⟨leading, rfl, hword⟩
    cases hword with
    | @range _ digit x y isDigit value bounds first second =>
      have hbounds := isDigit_iff.1 isDigit
      rw [Nat.ofDigitChars_cons, Nat.ofDigitChars_nil, Nat.mul_zero, Nat.zero_add] at value
      rw [range?, if_pos ⟨Char.le_def.2 (show 49 ≤ digit.toNat by omega),
        Char.le_def.2 (show digit.toNat ≤ 53 by omega), toLower_eq_x_iff.2 first,
        toLower_eq_x_iff.2 second⟩, value]

/-- The number of two digits is less than a hundred. -/
theorem ofDigitChars_lt_hundred {a b : Char} (ha : a.isDigit = true) (hb : b.isDigit = true) :
    Nat.ofDigitChars 10 [a, b] 0 < 100 := by
  have hfirst := ofDigitChars_lt_ten ha
  have hsecond := ofDigitChars_lt_ten hb
  simp only [Nat.ofDigitChars_cons, Nat.ofDigitChars_nil] at hfirst hsecond ⊢
  omega

/-- **A word is read as a code exactly if it is the three digits of one.** A plus sign leaves two
bytes for the digits, which are not enough. -/
theorem code?_eq_some_iff :
    code? word = some key ↔ ∃ number, key = .code number ∧ key.IsWord word := by
  constructor
  · intro h
    obtain ⟨number, hnumber, h⟩ := Option.bind_eq_some_iff.1 h
    split at h
    · next hform =>
      obtain ⟨hleast, hgreatest, hlength⟩ := hform
      cases h
      obtain ⟨run, hrun, hdigits, hvalue⟩ := Text.exists_of_unsigned16? hnumber
      have hbytes := Text.byteLength_of_isDigit hdigits
      rcases hrun with rfl | rfl
      · exact ⟨number, rfl, .code (hbytes.symm.trans hlength) hdigits hvalue ⟨hleast, hgreatest⟩⟩
      · have htwo : run.length = 2 := by
          rw [Text.byteLength, hbytes] at hlength
          exact Nat.add_left_cancel (n := 1) hlength
        obtain ⟨a, b, rfl⟩ := List.length_eq_two.1 htwo
        have hsmall := ofDigitChars_lt_hundred (hdigits a (by simp)) (hdigits b (by simp))
        omega
    · cases h
  · rintro ⟨number, rfl, hword⟩
    cases hword with
    | code length areDigits value bounds =>
      have hne : word ≠ [] := fun hnil => by simp [hnil] at length
      refine Option.bind_eq_some_iff.2 ⟨number,
        Text.unsigned16?_of_isDigit hne areDigits value (by omega), if_pos ⟨bounds.1, bounds.2, ?_⟩⟩
      rw [Text.byteLength_of_isDigit areDigits, length]

/-- The forms of classes and codes are not the word `default` in some case. -/
theorem IsWord.map_toLower_ne (h : key.IsWord word) (hkey : key ≠ .default) :
    word.map Char.toLower ≠ ['d', 'e', 'f', 'a', 'u', 'l', 't'] := by
  have hlength : word.length = 3 := by
    cases h with
    | default => exact absurd rfl hkey
    | range => rfl
    | code length => exact length
  intro heq
  have := congrArg List.length heq
  simp [hlength] at this

/-- A trimmed text is read as a key exactly if it is one of the key's forms. -/
theorem ofText?_eq_some_iff_isWord :
    ofText? text = some key ↔ key.IsWord (Text.trim text.toList) := by
  have hletters : ∀ letter ∈ ['d', 'e', 'f', 'a', 'u', 'l', 't'],
      letter.toLower = letter ∧ letter.toUpper.toLower = letter :=
    List.forall_iff_forall_mem.1 (by decide)
  unfold ofText?
  generalize Text.trim text.toList = word
  dsimp only
  constructor
  · intro h
    split at h
    · next hdefault =>
      cases h
      exact .default ((map_toLower_eq_iff hletters).1 hdefault)
    · rcases Option.or_eq_some_iff.1 h with h | ⟨-, h⟩
      · obtain ⟨-, -, hword⟩ := range?_eq_some_iff.1 h
        exact hword
      · obtain ⟨-, -, hword⟩ := code?_eq_some_iff.1 h
        exact hword
  · intro h
    cases key with
    | default =>
      cases h with
      | default letters => rw [if_pos ((map_toLower_eq_iff hletters).2 letters)]
    | range leading =>
      rw [if_neg (h.map_toLower_ne nofun), range?_eq_some_iff.2 ⟨leading, rfl, h⟩, Option.some_or]
    | code number =>
      -- a class is told from a code by its letters
      have hrange : range? word = none := by
        refine Option.eq_none_iff_forall_ne_some.2 fun other hother => ?_
        obtain ⟨leading, rfl, hword⟩ := range?_eq_some_iff.1 hother
        cases hword with
        | @range _ _ x _ _ _ _ first =>
          cases h with
          | code _ areDigits =>
            have hdigit := areDigits x (by simp)
            rcases first with rfl | rfl <;> cases hdigit
      rw [if_neg (h.map_toLower_ne nofun), hrange, Option.none_or,
        code?_eq_some_iff.2 ⟨number, rfl, h⟩]

/-- **Reading accepts exactly the spellings of keys.** -/
theorem ofText?_eq_some_iff : ofText? text = some key ↔ key.SpelledBy text := by
  rw [ofText?_eq_some_iff_isWord]
  constructor
  · intro h
    obtain ⟨before, after, hsplit, hbefore, hafter⟩ := Text.exists_eq_append_trim_append text.toList
    exact ⟨before, _, after, hsplit, hbefore, hafter, h⟩
  · rintro ⟨before, word, after, hsplit, hbefore, hafter, hword⟩
    have hplain := hword.not_isBlank
    rwa [hsplit, Text.trim_append_append hbefore hafter
      (fun c hc => hplain c (List.mem_of_mem_head? hc))
      (fun c hc => hplain c (List.mem_of_mem_getLast? hc))]

/-- The digits of a number from 100 to 999 are three. -/
theorem length_toDigits_of_bounds {n : Nat} (h : 100 ≤ n ∧ n < 1000) :
    (Nat.toDigits 10 n).length = 3 := by
  have hle := (Nat.length_toDigits_le_iff (b := 10) (n := n) (k := 3) (by decide) (by decide)).2
    (by omega)
  have hgt := mt (Nat.length_toDigits_le_iff (b := 10) (n := n) (k := 2) (by decide) (by decide)).1
    (by omega)
  omega

/-- **The canonical spelling of a key is one of its forms**, if it has any. -/
theorem IsWord.isWord_text (h : key.IsWord word) : key.IsWord key.text.toList := by
  cases h with
  | default =>
    exact .default ((map_toLower_eq_iff (List.forall_iff_forall_mem.1 (by decide))).1 (by decide))
  | @range leading _ _ _ _ _ bounds =>
    obtain ⟨hleast, hgreatest⟩ := bounds
    have hleading : leading = 1 ∨ leading = 2 ∨ leading = 3 ∨ leading = 4 ∨ leading = 5 := by omega
    rcases hleading with rfl | rfl | rfl | rfl | rfl <;>
      exact .range (by decide) (by decide) (by decide) (.inr rfl) (.inr rfl)
  | @code number _ _ _ _ bounds =>
    have htext : (StatusKey.code number).text.toList = Nat.toDigits 10 number := by
      simp [StatusKey.text]
    rw [htext]
    exact .code (length_toDigits_of_bounds (by omega))
      (fun c hc => Nat.isDigit_of_mem_toDigits (by decide) (by decide) hc)
      (Nat.ofDigitChars_toDigits (by decide) (by decide)) bounds

/-- **The canonical spelling of a key is read as that key**, if any text is. -/
theorem ofText?_text (h : ofText? text = some key) : ofText? key.text = some key := by
  have hword := (ofText?_eq_some_iff_isWord.1 h).isWord_text
  have hplain := hword.not_isBlank
  have htrimmed : Text.trim ([] ++ (key.text.toList ++ [])) = key.text.toList :=
    Text.trim_append_append nofun nofun (fun c hc => hplain c (List.mem_of_mem_head? hc))
      (fun c hc => hplain c (List.mem_of_mem_getLast? hc))
  rw [List.nil_append, List.append_nil] at htrimmed
  rw [ofText?_eq_some_iff_isWord, htrimmed]
  exact hword

/-- A key, or a complaint. -/
theorem ofText_eq_ok_iff : ofText text = .ok key ↔ ofText? text = some key := by
  unfold ofText
  cases ofText? text with
  | none => exact iff_of_false nofun nofun
  | some other => rw [Except.ok.injEq, Option.some_inj]

/-- The complaint is about the text as it was written. -/
theorem ofText_eq_error_iff {error : InvalidStatusKey} :
    ofText text = .error error ↔ (∀ key, ofText? text ≠ some key) ∧ error = ⟨text⟩ := by
  unfold ofText
  cases ofText? text with
  | none =>
    rw [Except.error.injEq, eq_comm]
    exact (and_iff_right nofun).symm
  | some other => exact iff_of_false nofun fun h => h.1 other rfl

/-- **The reading of keys.** A text is read as a key exactly if it spells that key; a text that
spells none is refused, and the complaint repeats it unchanged. The canonical spelling of a key that
some text is read as is read as the same key, so that such keys are told apart by their canonical
spellings. -/
theorem ofText_reads_spellings :
    (∀ text key, ofText text = .ok key ↔ key.SpelledBy text) ∧
    (∀ text error, ofText text = .error error ↔
      (∀ key : StatusKey, ¬ key.SpelledBy text) ∧ error = ⟨text⟩) ∧
    (∀ text key, ofText text = .ok key → ofText key.text = .ok key) ∧
    ∀ text text' key key', ofText text = .ok key → ofText text' = .ok key' →
      key.text = key'.text → key = key' := by
  have hcanonical : ∀ text key, ofText text = .ok key → ofText key.text = .ok key :=
    fun text key h => ofText_eq_ok_iff.2 (ofText?_text (ofText_eq_ok_iff.1 h))
  refine ⟨fun text key => ofText_eq_ok_iff.trans ofText?_eq_some_iff, fun text error => ?_,
    hcanonical, fun text text' key key' h h' htext => ?_⟩
  · rw [ofText_eq_error_iff]
    exact and_congr_left' (forall_congr' fun key => not_congr ofText?_eq_some_iff)
  · have hkey := hcanonical text key h
    rw [htext, hcanonical text' key' h'] at hkey
    exact (Except.ok.inj hkey).symm

/-- A class in mixed case between blanks that are not ASCII, and a number behind a plus sign. -/
theorem ofText_between_blanks :
    ofText "\u2003 4xX\u00a0" = .ok (.range 4) ∧
      (StatusKey.range 4).SpelledBy "\u2003 4xX\u00a0" ∧ ofText "4XX" = .ok (.range 4) ∧
      (∀ key, ofText "4xx" = .ok key → key.text = "4XX" → key = .range 4) ∧
      ofText " +99" = .error ⟨" +99"⟩ ∧ ∀ key : StatusKey, ¬ key.SpelledBy " +99" := by
  obtain ⟨hok, herror, hcanonical, hinjective⟩ := ofText_reads_spellings
  have hread : ofText "\u2003 4xX\u00a0" = .ok (.range 4) := by decide
  have hrefused : ofText " +99" = .error ⟨" +99"⟩ := by decide
  exact ⟨hread, (hok _ _).1 hread, hcanonical _ _ hread,
    fun key hkey htext => hinjective _ _ key _ hkey hread htext, hrefused,
    ((herror _ _).1 hrefused).1⟩

end StatusKey

end ApiCatalog
