set_option autoImplicit false

/-!
# Sorting

A list is put in order by insertion, member by member, so that what is sorted can be evaluated.

## Main definitions

* `ApiCatalog.insertInOrder`: a list with one more member, at its place.
* `ApiCatalog.inOrder`: the members of a list in order.

## Main results

* `ApiCatalog.perm_inOrder`: a list in order has the members of the list.
* `ApiCatalog.pairwise_inOrder`: different members are put in strictly increasing order.
-/

namespace ApiCatalog

variable {α : Type} [LT α] [DecidableLT α]

/-- A list with one more member, which stands behind those that are below it. -/
def insertInOrder (member : α) : List α → List α
  | [] => [member]
  | other :: rest =>
    if other < member then other :: insertInOrder member rest else member :: other :: rest

/-- The members of a list in order. -/
def inOrder (members : List α) : List α :=
  members.foldr insertInOrder []

/-- An insertion adds its member, and no other. -/
theorem perm_insertInOrder (member : α) (members : List α) :
    (insertInOrder member members).Perm (member :: members) := by
  induction members with
  | nil => exact .refl _
  | cons other rest ih =>
    rw [insertInOrder]
    split
    · exact (ih.cons other).trans (.swap member other rest)
    · exact .refl _

/-- A list in order has the members of the list. -/
theorem perm_inOrder (members : List α) : (inOrder members).Perm members := by
  induction members with
  | nil => exact .refl _
  | cons member rest ih => exact (perm_insertInOrder member _).trans (ih.cons member)

/-- A list in order has the members of the list. -/
@[simp]
theorem mem_inOrder {members : List α} {member : α} :
    member ∈ inOrder members ↔ member ∈ members :=
  (perm_inOrder members).mem_iff

variable [Std.Trichotomous (· < · : α → α → Prop)]

omit [DecidableLT α] in
/-- Different members are in one order or the other. -/
theorem lt_of_not_lt_of_ne {a b : α} (h : ¬ a < b) (hne : ¬ a = b) : b < a := by
  by_cases hba : b < a
  · exact hba
  · exact absurd (Std.Trichotomous.trichotomous a b h hba) hne

variable [Trans (· < · : α → α → Prop) (· < ·) (· < ·)]

/-- The insertion of a new member keeps the members in order. -/
theorem pairwise_insertInOrder {member : α} {members : List α} (hnew : member ∉ members)
    (h : members.Pairwise (· < ·)) : (insertInOrder member members).Pairwise (· < ·) := by
  induction members with
  | nil => exact List.pairwise_singleton _ member
  | cons other rest ih =>
    obtain ⟨hhead, htail⟩ := List.pairwise_cons.1 h
    rw [List.mem_cons, not_or] at hnew
    rw [insertInOrder]
    split
    · next hlt =>
      refine List.pairwise_cons.2 ⟨fun third hthird => ?_, ih hnew.2 htail⟩
      rcases List.mem_cons.1 ((perm_insertInOrder member rest).mem_iff.1 hthird) with rfl | hthird
      · exact hlt
      · exact hhead third hthird
    · next hnot =>
      have hlt : member < other := lt_of_not_lt_of_ne hnot (Ne.symm hnew.1)
      refine List.pairwise_cons.2 ⟨fun third hthird => ?_, h⟩
      rcases List.mem_cons.1 hthird with rfl | hthird
      · exact hlt
      · exact Trans.trans hlt (hhead third hthird)

/-- Different members are put in strictly increasing order. -/
theorem pairwise_inOrder {members : List α} (h : members.Nodup) :
    (inOrder members).Pairwise (· < ·) := by
  induction members with
  | nil => exact .nil
  | cons member rest ih =>
    obtain ⟨hnew, hrest⟩ := List.nodup_cons.1 h
    exact pairwise_insertInOrder (fun hmem => hnew (mem_inOrder.1 hmem)) (ih hrest)

end ApiCatalog
