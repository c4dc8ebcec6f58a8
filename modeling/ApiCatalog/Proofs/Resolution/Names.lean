import ApiCatalog.Model.Naming
import Mathlib.Data.List.TakeWhile

set_option autoImplicit false

/-!
# Names made from hints

The name of a part begins with the name of the schema around it, which a mark follows. Marks do not
begin with a digit, so that the number of a member can be read off the name of any part of it.

## Main definitions

* `Naming.Extends`: a name is a given one, or goes on from it with a mark.
* `Naming.IsPlain`: a name with the slashes of a primitive type, and nothing that a mark has.

## Main results

* `Naming.Extends.member_unique`: parts of different members have different names.
* `Naming.isPlain_canonicalName`: the names of primitive types are plain; those of parts and of the
  schemas of an endpoint are not.
-/

namespace ApiCatalog.Naming

variable {a b c hint name : ModelName}

/-- A name is a given one, or goes on from it with a mark, which does not begin with a digit. -/
def Extends (hint name : ModelName) : Prop :=
  ∃ rest, name.toList = hint.toList ++ rest ∧ ∀ c ∈ rest.head?, c.isDigit = false

/-- The characters of a member's name. -/
theorem toList_member (hint : ModelName) (index : Nat) :
    (member hint index).toList = hint.toList ++ '#' :: Nat.toDigits 10 index := by
  simp [member]

/-- The characters of the name of items. -/
theorem toList_arrayItem (hint : ModelName) :
    (arrayItem hint).toList = hint.toList ++ ['[', ']'] := by
  simp [arrayItem]

namespace Extends

/-- A name goes on from itself. -/
theorem refl (name : ModelName) : Extends name name :=
  ⟨[], (List.append_nil _).symm, fun _ h => nomatch h⟩

/-- What goes on from a name that goes on from another goes on from that. -/
theorem trans (h₁ : Extends a b) (h₂ : Extends b c) : Extends a c := by
  obtain ⟨rest, hrest, hmark⟩ := h₁
  obtain ⟨rest', hrest', hmark'⟩ := h₂
  refine ⟨rest ++ rest', by rw [hrest', hrest, List.append_assoc], ?_⟩
  cases rest with
  | nil => exact hmark'
  | cons first others => exact hmark

/-- The name of a member goes on from that of the composition. -/
theorem member (hint : ModelName) (index : Nat) : Extends hint (member hint index) :=
  ⟨_, toList_member hint index, by rintro _ ⟨⟩; decide⟩

/-- The name of items goes on from that of the array. -/
theorem arrayItem (hint : ModelName) : Extends hint (arrayItem hint) :=
  ⟨_, toList_arrayItem hint, by rintro _ ⟨⟩; decide⟩

/-- The digits of a number at the beginning of a text that goes on with a mark. -/
theorem takeWhile_digits {rest : List Char} (hmark : ∀ c ∈ rest.head?, c.isDigit = false)
    (index : Nat) :
    (Nat.toDigits 10 index ++ rest).takeWhile Char.isDigit = Nat.toDigits 10 index := by
  have hdigits : ∀ c ∈ Nat.toDigits 10 index, c.isDigit = true := fun c hc =>
    Nat.isDigit_of_mem_toDigits (by decide) (by decide) hc
  have hrest : rest.takeWhile Char.isDigit = [] := by
    cases rest with
    | nil => rfl
    | cons first others =>
      rw [List.takeWhile_cons, hmark first rfl]
      rfl
  rw [List.takeWhile_append_of_pos hdigits, hrest, List.append_nil]

/-- A number that a mark follows, or nothing, can be told from its digits. -/
theorem eq_of_toDigits_append_eq {rest rest' : List Char}
    (hmark : ∀ c ∈ rest.head?, c.isDigit = false) (hmark' : ∀ c ∈ rest'.head?, c.isDigit = false)
    {i j : Nat} (h : Nat.toDigits 10 i ++ rest = Nat.toDigits 10 j ++ rest') :
    i = j ∧ rest = rest' := by
  have hdigits : Nat.toDigits 10 i = Nat.toDigits 10 j := by
    rw [← takeWhile_digits hmark i, h, takeWhile_digits hmark' j]
  have hnumbers := congrArg (Nat.ofDigitChars 10 · 0) hdigits
  rw [hdigits] at h
  refine ⟨?_, List.append_cancel_left h⟩
  simpa only [Nat.ofDigitChars_toDigits (b := 10) (by decide) (by decide)] using hnumbers

/-- **Parts of different members have different names.** -/
theorem member_unique {i j : Nat} (h : Extends (Naming.member hint i) name)
    (h' : Extends (Naming.member hint j) name) : i = j := by
  obtain ⟨rest, hrest, hmark⟩ := h
  obtain ⟨rest', hrest', hmark'⟩ := h'
  have hsame : Nat.toDigits 10 i ++ rest = Nat.toDigits 10 j ++ rest' := by
    have heq := hrest.symm.trans hrest'
    simpa [toList_member] using heq
  exact (eq_of_toDigits_append_eq hmark hmark' hsame).1

end Extends

/-! ## Plain names -/

/-- A name with two slashes, as the primitive types have them, without a digit and without the
characters that the marks of other parts have. -/
structure IsPlain (name : ModelName) : Prop where
  slashes : name.toList.count '/' = 2
  unmarked : ∀ c ∈ name.toList, c.isDigit = false ∧ c ∉ ['.', '[', '?']

/-- The names of primitive types are plain. -/
theorem isPlain_canonicalName (kind : PrimitiveKind) : IsPlain kind.canonicalName := by
  have hslashes : kind.canonicalName.toList.count '/' = 2 := by cases kind <;> decide
  have hunmarked : (kind.canonicalName.toList.all fun c =>
      !c.isDigit && !(['.', '[', '?'].contains c)) = true := by cases kind <;> decide
  refine ⟨hslashes, fun c hc => ?_⟩
  simpa using List.all_eq_true.1 hunmarked c hc

/-- A plain name has none of the characters of marks. -/
theorem IsPlain.not_mem {c : Char} (h : IsPlain name) (hc : c ∈ ['.', '[', '?']) :
    c ∉ name.toList :=
  fun hmem => (h.unmarked c hmem).2 hc

/-- The name of a property is not plain. -/
theorem not_isPlain_property (hint : ModelName) (key : String) : ¬ IsPlain (property hint key) :=
  fun h => h.not_mem (c := '.') (by decide) (by simp [property])

/-- The name of a parameter's schema is not plain. -/
theorem not_isPlain_pathParameter (path parameter : String) :
    ¬ IsPlain (pathParameter path parameter) :=
  fun h => h.not_mem (c := '.') (by decide) (by simp [pathParameter])

/-- The name of items is not plain. -/
theorem not_isPlain_arrayItem (hint : ModelName) : ¬ IsPlain (arrayItem hint) :=
  fun h => h.not_mem (c := '[') (by decide) (by simp [arrayItem])

/-- The name of an enumeration that admits null is not plain. -/
theorem not_isPlain_enumeration (hint : ModelName) : ¬ IsPlain (enumeration hint true) :=
  fun h => h.not_mem (c := '?') (by decide) (by simp [enumeration])

/-- The name of a member is not plain. -/
theorem not_isPlain_member (hint : ModelName) (index : Nat) : ¬ IsPlain (member hint index) := by
  intro h
  obtain ⟨digit, hdigit⟩ := List.exists_mem_of_ne_nil _ (Nat.toDigits_ne_nil (b := 10) (n := index))
  have hunmarked := (h.unmarked digit (by simp [toList_member, hdigit])).1
  rw [Nat.isDigit_of_mem_toDigits (by decide) (by decide) hdigit] at hunmarked
  cases hunmarked

/-- The name of a request body's schema is not plain. -/
theorem not_isPlain_requestBody (path : String) (method : HttpMethod) (mediaType : String) :
    ¬ IsPlain (requestBody path method mediaType) := by
  intro h
  have hslashes := h.slashes
  simp [requestBody, List.count_append] at hslashes
  omega

/-- The name of a response's schema is not plain. -/
theorem not_isPlain_response (path : String) (method : HttpMethod) (status : StatusKey)
    (mediaType : String) : ¬ IsPlain (response path method status mediaType) := by
  intro h
  have hslashes := h.slashes
  simp [response, List.count_append] at hslashes
  omega

end ApiCatalog.Naming
