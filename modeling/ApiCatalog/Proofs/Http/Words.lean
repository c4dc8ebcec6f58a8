import ApiCatalog.Proofs.Resolution.Names

set_option autoImplicit false

/-!
# Words in texts

Texts that are put together from words, with a separator behind each, can be divided again if no
word contains the separator. Methods and status keys are written as such words: in capital letters,
digits and the letters of `default`.

## Main results

* `ApiCatalog.append_cons_inj`: a text is divided uniquely before its first separator.
* `HttpMethod.name_injective`, `StatusKey.text_injective`: methods and status keys can be told from
  their texts.
-/

namespace ApiCatalog

/-! ## Division of texts -/

/-- A text is divided uniquely before its first separator. -/
theorem append_cons_inj {α : Type} {mark : α} {word word' rest rest' : List α}
    (hword : mark ∉ word) (hword' : mark ∉ word')
    (h : word ++ mark :: rest = word' ++ mark :: rest') : word = word' ∧ rest = rest' := by
  induction word generalizing word' with
  | nil =>
    cases word' with
    | nil => exact ⟨rfl, (List.cons.inj h).2⟩
    | cons first others =>
      obtain rfl := (List.cons.inj h).1
      exact absurd List.mem_cons_self hword'
  | cons first others ih =>
    cases word' with
    | nil =>
      obtain rfl := (List.cons.inj h).1
      exact absurd List.mem_cons_self hword
    | cons first' others' =>
      obtain ⟨rfl, hothers⟩ := List.cons.inj h
      obtain ⟨rfl, rfl⟩ := ih (fun hmem => hword (List.mem_cons_of_mem _ hmem))
        (fun hmem => hword' (List.mem_cons_of_mem _ hmem)) hothers
      exact ⟨rfl, rfl⟩

/-- The first word of a text is determined, and what comes after it. -/
theorem firstWord_inj {word word' rest rest' : String} (hword : ' ' ∉ word.toList)
    (hword' : ' ' ∉ word'.toList) (h : word ++ " " ++ rest = word' ++ " " ++ rest') :
    word = word' ∧ rest = rest' := by
  have hlists : word.toList ++ ' ' :: rest.toList = word'.toList ++ ' ' :: rest'.toList := by
    simpa using congrArg String.toList h
  obtain ⟨hfirst, hrest⟩ := append_cons_inj hword hword' hlists
  exact ⟨String.toList_inj.1 hfirst, String.toList_inj.1 hrest⟩

/-- The last word of a text is determined, and what comes before it. -/
theorem lastWord_inj {word word' start start' : String} (hword : ' ' ∉ word.toList)
    (hword' : ' ' ∉ word'.toList) (h : start ++ " " ++ word = start' ++ " " ++ word') :
    start = start' ∧ word = word' := by
  have hlists : word.toList.reverse ++ ' ' :: start.toList.reverse =
      word'.toList.reverse ++ ' ' :: start'.toList.reverse := by
    simpa using congrArg (fun text : String => text.toList.reverse) h
  obtain ⟨hlast, hstart⟩ := append_cons_inj (by simpa using hword) (by simpa using hword') hlists
  exact ⟨String.toList_inj.1 (List.reverse_inj.1 hstart),
    String.toList_inj.1 (List.reverse_inj.1 hlast)⟩

/-! ## Methods -/

namespace HttpMethod

/-- The name of a method is a word. -/
theorem blank_not_mem_name (method : HttpMethod) : ' ' ∉ method.name.toList := by
  cases method <;> decide

/-- The name of a method has no slash. -/
theorem slash_not_mem_name (method : HttpMethod) : '/' ∉ method.name.toList := by
  cases method <;> decide

/-- Methods have different names. -/
theorem name_injective {method method' : HttpMethod} (h : method.name = method'.name) :
    method = method' := by
  revert h
  cases method <;> cases method' <;> decide

end HttpMethod

/-! ## Status keys -/

/-- The characters of a number are digits. -/
theorem isDigit_of_mem_toString {n : Nat} {c : Char} (h : c ∈ (toString n).toList) :
    c.isDigit = true := by
  have hdigits : (toString n).toList = Nat.toDigits 10 n := by simp
  rw [hdigits] at h
  exact Nat.isDigit_of_mem_toDigits (by decide) (by decide) h

namespace StatusKey

/-- The characters of a status key are digits and certain letters. -/
theorem mem_text {status : StatusKey} {c : Char} (h : c ∈ status.text.toList) :
    c.isDigit = true ∨ c = 'X' ∨ c ∈ "default".toList := by
  cases status with
  | code value => exact .inl (isDigit_of_mem_toString h)
  | range leading =>
    rw [StatusKey.text, String.toList_append, List.mem_append] at h
    refine h.imp isDigit_of_mem_toString fun hmem => .inl ?_
    simpa using hmem
  | default => exact .inr (.inr h)

/-- A status key is a word. -/
theorem blank_not_mem_text (status : StatusKey) : ' ' ∉ status.text.toList := fun hmem =>
  absurd (mem_text hmem) (by decide)

/-- A status key has no slash. -/
theorem slash_not_mem_text (status : StatusKey) : '/' ∉ status.text.toList := fun hmem =>
  absurd (mem_text hmem) (by decide)

/-- Only the default is written as a word of small letters. -/
theorem text_eq_default_iff {status : StatusKey} : status.text = "default" ↔ status = .default := by
  refine ⟨fun h => ?_, fun h => h ▸ rfl⟩
  have hletter : 'd' ∈ status.text.toList := h ▸ by decide
  cases status with
  | code value => exact absurd (isDigit_of_mem_toString hletter) (by decide)
  | range leading =>
    rw [text, String.toList_append, List.mem_append] at hletter
    rcases hletter with hdigit | hmark
    · exact absurd (isDigit_of_mem_toString hdigit) (by decide)
    · exact absurd hmark (by decide)
  | default => rfl

/-- **Status keys have different texts.** A code and a class of codes begin with a number, and what
comes after the number tells which of them it is. -/
theorem text_injective : Function.Injective text := by
  have hnumbers (n n' : Nat) (rest rest' : String)
      (hmarks : rest ∈ ["", "XX"] ∧ rest' ∈ ["", "XX"])
      (h : toString n ++ rest = toString n' ++ rest') : n = n' ∧ rest.toList = rest'.toList := by
    have hmark : ∀ mark ∈ ["", "XX"], ∀ c ∈ mark.toList.head?, c.isDigit = false := by simp
    refine Naming.Extends.eq_of_toDigits_append_eq (hmark rest hmarks.1) (hmark rest' hmarks.2) ?_
    simpa using congrArg String.toList h
  intro status status' h
  cases status with
  | default => exact (text_eq_default_iff.1 h.symm).symm
  | code value =>
    cases status' with
    | default => exact text_eq_default_iff.1 h
    | code value' =>
      exact congrArg code (hnumbers value value' "" "" (by decide) (by simpa [text] using h)).1
    | range leading' =>
      cases (hnumbers value leading' "" "XX" (by decide) (by simpa [text] using h)).2
  | range leading =>
    cases status' with
    | default => exact text_eq_default_iff.1 h
    | code value' =>
      cases (hnumbers leading value' "XX" "" (by decide) (by simpa [text] using h)).2
    | range leading' =>
      exact congrArg range (hnumbers leading leading' "XX" "XX" (by decide) h).1

end StatusKey

end ApiCatalog
