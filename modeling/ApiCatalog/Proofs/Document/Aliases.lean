import ApiCatalog.Proofs.Document.Mentions
import Mathlib.Order.WellFounded

set_option autoImplicit false

/-!
# Aliases that end

A component that is itself a reference redirects every path to it. Looking a path up follows these
redirections; it comes to an end of its own if there is no endless chain of them, and then the only
obstacle left is a path on the way that cannot be taken apart.

## Main definitions

* `ApiCatalog.Redirects`: a path leads to a component that is itself a reference.
* `ApiCatalog.AliasesEnd`: no chain of redirections is endless.

## Main results

* `ApiCatalog.lookUp_error_cases`: why a look-up cannot be carried on, if aliases end.
* `ApiCatalog.aliasesEnd_of_rank`: a criterion for documents whose aliases end.
-/

namespace ApiCatalog

variable {α : Type} {kind : ComponentKind} {entries : SortedMap (OrReference α)}

/-- A path is redirected: it leads to a component that is itself a reference, to `next`. -/
def Redirects (kind : ComponentKind) (entries : SortedMap (OrReference α)) (path next : String) :
    Prop :=
  ∃ name, Reference.nameFor kind path = .ok (.ok name) ∧
    entries.find? name = some (.reference next)

/-- Following aliases ends: no path is redirected without end. -/
def AliasesEnd (kind : ComponentKind) (entries : SortedMap (OrReference α)) : Prop :=
  WellFounded fun next path => Redirects kind entries path next

/-- If aliases end, no path is redirected to itself. -/
theorem AliasesEnd.irrefl (h : AliasesEnd kind entries) (path : String) :
    ¬ Relation.TransGen (Redirects kind entries) path path := by
  intro hcycle
  have hback := Relation.transGen_swap.2 hcycle
  exact h.transGen.irrefl.irrefl path hback

/-- Aliases end if each is redirected to a component of smaller rank. -/
theorem aliasesEnd_of_rank (rank : String → Nat)
    (h : ∀ entry ∈ entries.entries, ∀ next ∈ entry.2.target?, ∀ other ∈ targetName? next,
      rank other < rank entry.1) : AliasesEnd kind entries := by
  -- a path without a name is redirected to nothing
  let measure (path : String) : Nat := (targetName? path).elim 0 fun name => rank name + 1
  refine Subrelation.wf (r := InvImage (· < ·) measure) ?_ (InvImage.wf measure wellFounded_lt)
  rintro next path ⟨name, hname, hfind⟩
  have hpath : measure path = rank name + 1 := by
    simp only [measure, targetName?_of_nameFor hname, Option.elim]
  show measure next < measure path
  rw [hpath]
  cases hnext : targetName? next with
  | none => simp [measure, hnext]
  | some other =>
    have hlt : rank other < rank name :=
      h (name, .reference next) (SortedMap.mem_entries_of_find? hfind) next rfl other hnext
    simp only [measure, hnext, Option.elim]
    omega

/-- A path that cannot be taken apart is malformed. -/
theorem ofPath_eq_error {path : String} {abort : Abort} (h : Reference.ofPath path = .error abort) :
    Reference.ofPath? path = none ∧ abort = .malformedReference path := by
  unfold Reference.ofPath at h
  split at h
  · cases h
  · next hpath =>
    cases h
    exact ⟨hpath, rfl⟩

/-- A path under which nothing can be looked up is malformed. -/
theorem nameFor_eq_error {path : String} {abort : Abort}
    (h : Reference.nameFor kind path = .error abort) :
    Reference.ofPath? path = none ∧ abort = .malformedReference path := by
  unfold Reference.nameFor at h
  split at h
  · next hpath =>
    cases h
    exact ofPath_eq_error hpath
  · split at h
    · cases h
    · split at h <;> cases h

/-- A reference within the document whose component cannot be told is malformed. -/
theorem componentName_eq_error {path : String} {abort : Abort}
    (h : componentName path = .error abort) :
    Reference.ofPath? path = none ∧ abort = .malformedReference path := by
  unfold componentName at h
  split at h
  · cases h
  · split at h
    · next hpath =>
      cases h
      exact ofPath_eq_error hpath
    · split at h <;> cases h

/-- Every entry visited on the way to a path was a reference that has been followed up to it. -/
def FollowedFrom (kind : ComponentKind) (entries : SortedMap (OrReference α))
    (visited : List String) (path : String) : Prop :=
  ∀ name ∈ visited, ∃ next, entries.find? name = some (.reference next) ∧
    Relation.ReflTransGen (Redirects kind entries) next path

/-- **Why a look-up cannot be carried on**, if aliases end: it comes to a path that is malformed.

**Proof sketch.** Induction along the look-up. A name that was visited before would redirect the
path to itself, since the entries visited have been followed up to it. -/
theorem lookUpFrom_error_cases (hends : AliasesEnd kind entries) {visited : List String}
    {path : String} {abort : Abort} (hvisited : FollowedFrom kind entries visited path)
    (h : lookUpFrom kind entries visited path = .error abort) :
    ∃ last, Relation.ReflTransGen (Redirects kind entries) path last ∧
      Reference.ofPath? last = none ∧ abort = .malformedReference last := by
  induction visited, path using lookUpFrom.induct kind entries with
  | case1 visited path reason hname =>
    rw [lookUpFrom, hname] at h
    cases h
    exact ⟨path, .refl, nameFor_eq_error hname⟩
  | case2 visited path reason hname =>
    rw [lookUpFrom, hname] at h
    cases h
  | case3 visited path name hname hfind | case4 visited path name hname value hfind =>
    rw [lookUpFrom_of_nameFor hname, hfind] at h
    cases h
  | case5 visited path name hname next hfind hbefore =>
    obtain ⟨next', hfind', hback⟩ := hvisited name hbefore
    rw [hfind] at hfind'
    cases hfind'
    exact absurd (Relation.TransGen.head' ⟨name, hname, hfind⟩ hback) (hends.irrefl path)
  | case6 visited path name hname next hfind hnew ih =>
    rw [lookUpFrom_of_nameFor hname, hfind] at h
    simp only [if_neg hnew] at h
    have hstep : Redirects kind entries path next := ⟨name, hname, hfind⟩
    have hvisited' : FollowedFrom kind entries (name :: visited) next := by
      intro other hother
      rcases List.mem_cons.1 hother with rfl | hother
      · exact ⟨next, hfind, .refl⟩
      · obtain ⟨first, hfirst, hback⟩ := hvisited other hother
        exact ⟨first, hfirst, hback.tail hstep⟩
    obtain ⟨last, hlast, hmalformed⟩ := ih hvisited' h
    exact ⟨last, .head hstep hlast, hmalformed⟩

/-- Why a path cannot be looked up, if aliases end. -/
theorem lookUp_error_cases (hends : AliasesEnd kind entries) {path : String} {abort : Abort}
    (h : lookUp kind entries path = .error abort) :
    ∃ last, Relation.ReflTransGen (Redirects kind entries) path last ∧
      Reference.ofPath? last = none ∧ abort = .malformedReference last :=
  lookUpFrom_error_cases hends (fun _ hmem => absurd hmem List.not_mem_nil) h

end ApiCatalog
