set_option autoImplicit false

/-!
# Names not yet visited

A search that never visits a name twice ends, because the number of names that remain goes down
with every visit.

## Main definitions

* `ApiCatalog.remaining`: the number of names of a list that have not been visited.

## Main results

* `ApiCatalog.remaining_lt`: a visit to a name of the list leaves fewer.
-/

namespace ApiCatalog

/-- The number of names in a list that are not among the visited ones. -/
def remaining (names visited : List String) : Nat :=
  names.countP fun name => !visited.contains name

/-- A stronger condition that fails at a member counts fewer. -/
theorem countP_lt_of_imp {α : Type} {p q : α → Bool} {xs : List α} {a : α}
    (himp : ∀ x, q x = true → p x = true) (ha : a ∈ xs) (hp : p a = true) (hq : q a = false) :
    xs.countP q < xs.countP p := by
  induction xs with
  | nil => cases ha
  | cons x rest ih =>
    have hle : rest.countP q ≤ rest.countP p := List.countP_mono_left fun y _ => himp y
    rcases List.mem_cons.1 ha with rfl | ha
    · simp only [List.countP_cons, hp, hq, if_true, Bool.false_eq_true, if_false]
      omega
    · have hlt := ih ha
      simp only [List.countP_cons]
      by_cases hx : q x = true
      · rw [if_pos hx, if_pos (himp x hx)]
        omega
      · rw [if_neg hx]
        omega

/-- After a visit to a name that was not visited yet, fewer remain. -/
theorem remaining_lt {names visited : List String} {name : String}
    (hname : name ∈ names) (hnew : name ∉ visited) :
    remaining names (name :: visited) < remaining names visited := by
  refine countP_lt_of_imp (a := name) ?_ hname ?_ ?_
  · intro x hx
    simp only [List.contains_cons, Bool.not_eq_true', Bool.or_eq_false_iff] at hx
    rw [hx.2]
    rfl
  · simp [hnew]
  · simp

end ApiCatalog
