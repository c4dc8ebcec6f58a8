import ApiCatalog.Proofs.Translation.Acyclic

set_option autoImplicit false

/-!
# Orders of resolution

Components may be resolved in any order. If a component lies on a cycle with another one, it is
sometimes looked up while it is being resolved, and then answered with its id. The order does not
matter if that is what it denotes anyway. Otherwise it does, as it does if two components have a
name in common, of which the first registration is final.

## Main definitions

* `Document.OrderIndependent`: the order of resolution does not matter.
* `Document.Fails`: something that a component comes to cannot be translated.
* `Document.SoundCycles`: components on cycles denote their ids.

## Main results

* `ApiCatalog.orderIndependent_of_soundCycles`: when the order does not matter.
* `ApiCatalog.not_orderIndependent_loops`: documents for which it does.
-/

namespace ApiCatalog

/-- A resolution is given by its references and its success. -/
theorem Resolution.ext {first second : Resolution}
    (hreferences : first.references = second.references)
    (hsucceeded : first.succeeded = second.succeeded) : first = second := by
  cases first
  cases second
  cases hreferences
  cases hsucceeded
  rfl

/-- A finding is no fault, and if it is a reference, then to one of certain components. -/
def Finding.StaysIn (ids : List String) : Finding → Prop
  | .facet _ => True
  | .reference target => ∃ id ∈ ids, componentName target = .ok (some id)
  | .union _ => True
  | .fault => False

instance (ids : List String) (finding : Finding) : Decidable (finding.StaysIn ids) :=
  match finding with
  | .facet _ => .isTrue trivial
  | .reference target =>
    inferInstanceAs (Decidable (∃ id ∈ ids, componentName target = .ok (some id)))
  | .union _ => .isTrue trivial
  | .fault => .isFalse id

namespace Document

/-- **The order in which all components are resolved does not matter**: either there is always an
end to it, with the same model for each name and the same answer for each component, or never. -/
def OrderIndependent (document : Document) : Prop :=
  ∀ order order' : List (String × Node),
    order.Perm document.schemas.entries → order'.Perm document.schemas.entries →
    match resolveAll ⟨document, none⟩ order {}, resolveAll ⟨document, none⟩ order' {} with
    | .ok _ state, .ok _ state' =>
      (∀ name, state.repository.find? name = state'.repository.find? name) ∧
      ∀ id ∈ document.schemaIds, ∃ resolution,
        state.memo.find? id = some resolution ∧ state'.memo.find? id = some resolution
    | .error _ _, .error _ _ => True
    | .ok _ _, .error _ _ => False
    | .error _ _, .ok _ _ => False

/-! ## What components denote -/

/-- The references to a component, which do not depend on what other components denote. -/
def references (document : Document) (id : String) : List ModelName :=
  (document.translationOf (fun _ => .failed) id).resolution.references

/-- A component fails if something cannot be translated that its translation meets, or if that
refers to a component that fails or does not exist. -/
inductive Fails (document : Document) : String → Prop
  | fault {id : String} (hmet : .fault ∈ document.findingsOf id) : Fails document id
  | missing {id target : String} (hmet : .reference target ∈ document.findingsOf id)
      (hmissing : ∀ other ∈ document.schemaIds, componentName target ≠ .ok (some other)) :
      Fails document id
  | reference {id target other : String} (hmet : .reference target ∈ document.findingsOf id)
      (hname : componentName target = .ok (some other)) (hfails : Fails document other) :
      Fails document id

/-- A component that lies on a cycle with another one denotes its own id and nothing else, and does
not fail. -/
def SoundCycles (document : Document) : Prop :=
  ∀ id other, id ≠ other → Relation.TransGen document.Uses id other →
    Relation.TransGen document.Uses other id →
    document.references id = [id] ∧ ¬ document.Fails id

open Classical in
/-- What components denote whatever order they are resolved in. -/
noncomputable def outcome (document : Document) (id : String) : Resolution :=
  ⟨document.references id, decide (¬ document.Fails id)⟩

variable {document : Document}

/-- A component denotes success exactly if it does not fail. -/
theorem succeeded_outcome_iff {id : String} :
    (document.outcome id).succeeded = true ↔ ¬ document.Fails id := by
  simp [outcome]

/-- Components do not fail that come to no fault, and to no components but themselves. -/
theorem not_fails_of_staysIn {ids : List String} (hids : ids ⊆ document.schemaIds)
    (h : ∀ id ∈ ids, ∀ finding ∈ document.findingsOf id, finding.StaysIn ids) {id : String}
    (hid : id ∈ ids) : ¬ document.Fails id := by
  intro hfails
  induction hfails with
  | fault hmet => exact h _ hid _ hmet
  | missing hmet hmissing =>
    obtain ⟨other, hother, hname⟩ := h _ hid _ hmet
    exact hmissing other (hids hother) hname
  | reference hmet hname _ ih =>
    obtain ⟨other, hother, hname'⟩ := h _ hid _ hmet
    rw [hname] at hname'
    cases hname'
    exact ih hother

/-- The findings of a component that fails are not clear.

**Proof sketch.** Induction on the failure. A reference of the component to itself is answered with
success, but then the component fails for another reason. -/
theorem Fails.not_clear {id : String} (h : document.Fails id) :
    ¬ Clear (document.follow document.outcome id) (document.findingsOf id) := by
  induction h with
  | fault hmet => exact fun hclear => hclear _ hmet
  | @missing id target hmet hmissing =>
    intro hclear
    have hsucceeded : (document.follow document.outcome id target).succeeded = true :=
      hclear _ hmet
    unfold follow at hsucceeded
    split at hsucceeded
    · cases hsucceeded
    · cases hsucceeded
    · next other hname =>
      have hnone : (document.schemas.find? other).isSome ≠ true := by
        intro hsome
        obtain ⟨node, hfind⟩ := Option.isSome_iff_exists.1 hsome
        exact hmissing other (SortedMap.mem_keys_of_find? hfind) hname
      have hne : other ≠ id := by
        rintro rfl
        obtain ⟨schema, hfind⟩ := exists_of_mem_findingsOf hmet
        exact hnone (by rw [hfind]; rfl)
      rw [if_neg hne, if_neg hnone] at hsucceeded
      cases hsucceeded
  | @reference id target other hmet hname hfails ih =>
    intro hclear
    have hsucceeded : (document.follow document.outcome id target).succeeded = true :=
      hclear _ hmet
    rw [follow, hname] at hsucceeded
    by_cases hself : other = id
    · exact ih (hself ▸ hclear)
    · simp only [if_neg hself] at hsucceeded
      split at hsucceeded
      · exact succeeded_outcome_iff.1 hsucceeded hfails
      · cases hsucceeded

/-- The findings of a component are clear exactly if it does not fail. -/
theorem clear_iff_not_fails {id : String} :
    Clear (document.follow document.outcome id) (document.findingsOf id) ↔ ¬ document.Fails id := by
  refine ⟨fun hclear hfails => hfails.not_clear hclear, fun hsound finding hmet => ?_⟩
  cases finding with
  | facet name => trivial
  | union members => trivial
  | fault => exact hsound (.fault hmet)
  | reference target =>
    obtain ⟨other, hother, hname⟩ : ∃ other ∈ document.schemaIds,
        componentName target = .ok (some other) := by
      by_contra hnone
      push Not at hnone
      exact hsound (.missing hmet hnone)
    have hsome := SortedMap.isSome_find?_of_mem_keys hother
    show (document.follow document.outcome id target).succeeded = true
    rw [follow, hname]
    simp only [hsome, if_true]
    split
    · rfl
    · exact succeeded_outcome_iff.2 fun hfails => hsound (.reference hmet hname hfails)

/-- **What components denote is consistent** if those on cycles denote their ids. -/
theorem SoundCycles.settled (hcycles : document.SoundCycles) (hplain : ∀ id, ¬ document.IsAlias id)
    (hdistinct : document.Distinct) (hkinds : document.RefersByKind) :
    document.Settled document.outcome where
  plain := hplain
  distinct := hdistinct
  kinds := hkinds
  answers := by
    intro id schema hfind
    have hclear : Clear (document.follow document.outcome id) (schema.findings id) ↔
        ¬ document.Fails id := by
      rw [← findingsOf_of_find? hfind]
      exact clear_iff_not_fails
    rw [translationOf_of_find? hfind]
    refine Resolution.ext ?_ ?_
    · show document.references id = _
      rw [references, translationOf_of_find? hfind]
      exact references_translateSchema schema id false
    · rw [Bool.eq_iff_iff, succeeded_outcome_iff, succeeded_translateSchema_iff, hclear]
  cycles := by
    intro id other hne hthere hback
    obtain ⟨hreferences, hsound⟩ := hcycles id other hne hthere hback
    exact Resolution.ext hreferences (succeeded_outcome_iff.2 hsound)

end Document

/-! ## Independence -/

/-- **The order of resolution does not matter** if there are no aliases, no name belongs to two
places, references to schemas are meant as such, and components on a cycle with others denote their
ids.

**Proof sketch.** What components denote is defined without regard to the order, as the least
failure and the references of translations. It is consistent, so that `Document.Settled.resolveAll`
says of either order which models are registered, what is answered, and that the resolution comes to
an end exactly if all references can be taken apart. -/
theorem orderIndependent_of_soundCycles {document : Document}
    (hplain : ∀ id, ¬ document.IsAlias id) (hdistinct : document.Distinct)
    (hkinds : document.RefersByKind) (hcycles : document.SoundCycles) :
    document.OrderIndependent := by
  intro order order' horder horder'
  have hsettled := hcycles.settled hplain hdistinct hkinds
  have hends := hsettled.resolveAll horder
  have hends' := hsettled.resolveAll horder'
  cases hrun : resolveAll ⟨document, none⟩ order {} with
  | ok answer state =>
    have hcomplete := hends.post_of_ok hrun
    cases hrun' : resolveAll ⟨document, none⟩ order' {} with
    | ok answer' state' =>
      have hcomplete' := hends'.post_of_ok hrun'
      exact ⟨hcomplete.find?_eq hcomplete', fun id hid =>
        ⟨document.outcome id, hcomplete.memo_eq hid, hcomplete'.memo_eq hid⟩⟩
    | error abort state' => exact hends'.excuse_of_error hrun' hcomplete.readable
  | error abort state =>
    cases hrun' : resolveAll ⟨document, none⟩ order' {} with
    | ok answer' state' =>
      exact hends.excuse_of_error hrun (hends'.post_of_ok hrun').readable
    | error abort' state' => trivial

/-- A tree whose nodes refer to themselves and to lists of nodes, with components that fail. -/
def forest : Document :=
  .ofSchemas [
    ("Broken", .inline {}),
    ("Holder", .inline { types := .ofList [.object],
                         properties := [("broken", .reference "#/components/schemas/Broken"),
                                        ("node", .reference "#/components/schemas/Node")] }),
    ("Node", .inline { types := .ofList [.object],
                       properties := [("children", .reference "#/components/schemas/Nodes"),
                                      ("parent", .reference "#/components/schemas/Node"),
                                      ("tag", .inline { types := .ofList [.string] })] }),
    ("Nodes", .inline { types := .ofList [.array],
                        items := some (.each (.reference "#/components/schemas/Node")) })]

/-- The order does not matter for a document with cycles and failures apart from each other. -/
theorem orderIndependent_forest : forest.OrderIndependent := by
  have hplain : ∀ id, ¬ forest.IsAlias id := Document.not_isAlias_of_entries (by decide)
  have hdistinct : forest.Distinct := by
    unfold Document.Distinct
    decide
  have hrefers : forest.RefersToSchemas := Document.refersToSchemas_of_entries (by decide)
  have hcycles : forest.SoundCycles := by
    intro id other _ hthere hback
    have hid : id ∈ ["Node", "Nodes"] :=
      Document.mem_of_onCycle
        (fun id => if id = "Holder" then 2 else if id = "Broken" then 0 else 1)
        ["Node", "Nodes"] (by decide) (Document.onCycle_of_uses (hthere.trans hback))
    have hreferences : ∀ id ∈ ["Node", "Nodes"], forest.references id = [id] := by
      decide +kernel
    have hstays : ∀ id ∈ ["Node", "Nodes"], ∀ finding ∈ forest.findingsOf id,
        finding.StaysIn ["Node", "Nodes"] := by decide +kernel
    exact ⟨hreferences id hid, Document.not_fails_of_staysIn (by decide) hstays hid⟩
  exact orderIndependent_of_soundCycles hplain hdistinct hrefers.refersByKind hcycles

/-- An object that fails, on a cycle. -/
def failingLoop : Document :=
  .ofSchemas [
    ("A", .inline { types := .ofList [.object],
                    properties := [("b", .reference "#/components/schemas/B"),
                                   ("q", .inline {})] }),
    ("B", .inline { types := .ofList [.object],
                    properties := [("a", .reference "#/components/schemas/A")] })]

/-- An object that may be null, on a cycle. -/
def nullLoop : Document :=
  .ofSchemas [
    ("A", .inline { types := .ofList [.object, .null],
                    properties := [("b", .reference "#/components/schemas/B")] }),
    ("B", .inline { types := .ofList [.object],
                    properties := [("a", .reference "#/components/schemas/A")] })]

/-- A component with the name that a property of another one has. -/
def clash : Document :=
  .ofSchemas [
    ("A", .inline { types := .ofList [.object],
                    properties := [("b", .inline { types := .ofList [.object] })] }),
    ("A.b", .inline { types := .ofList [.array],
                      items := some (.each (.inline { types := .ofList [.string] })) })]

/-- A component schema to which one refers as if it were a parameter. -/
def misnomer : Document :=
  .ofSchemas [
    ("A", .inline { types := .ofList [.object] }),
    ("B", .inline { types := .ofList [.object],
                    properties := [("a", .reference "#/components/parameters/A")] })]

/-- The order matters if the model of a name is another one when components are resolved the other
way round. -/
theorem not_orderIndependent_of_reverse {document : Document} (name : ModelName)
    (h : (match resolveAll ⟨document, none⟩ document.schemas.entries {},
        resolveAll ⟨document, none⟩ document.schemas.entries.reverse {} with
      | .ok _ state, .ok _ state' =>
        decide (state.repository.find? name ≠ state'.repository.find? name)
      | _, _ => false) = true) : ¬ document.OrderIndependent := by
  intro hindependent
  have hagree := hindependent _ _ (.refl _) document.schemas.entries.reverse_perm
  split at h
  · next hrun hrun' =>
    rw [hrun, hrun'] at hagree
    exact of_decide_eq_true h (hagree.1 name)
  · cases h

/-- **The order matters** for a failure on a cycle, for an object on a cycle that denotes more than
its id, for two components with a name in common, and for a reference of the wrong kind, even
without aliases. -/
theorem not_orderIndependent_loops :
    ((∀ id, ¬ failingLoop.IsAlias id) ∧ failingLoop.Distinct ∧ ¬ failingLoop.OrderIndependent) ∧
    ((∀ id, ¬ nullLoop.IsAlias id) ∧ nullLoop.Distinct ∧ ¬ nullLoop.OrderIndependent) ∧
    ((∀ id, ¬ clash.IsAlias id) ∧ clash.Acyclic ∧ ¬ clash.OrderIndependent) ∧
    ((∀ id, ¬ misnomer.IsAlias id) ∧ misnomer.Distinct ∧ misnomer.Acyclic ∧
      ¬ misnomer.OrderIndependent) := by
  refine ⟨⟨Document.not_isAlias_of_entries (by decide), ?_, ?_⟩,
    ⟨Document.not_isAlias_of_entries (by decide), ?_, ?_⟩,
    ⟨Document.not_isAlias_of_entries (by decide), ?_, ?_⟩,
    ⟨Document.not_isAlias_of_entries (by decide), ?_, ?_, ?_⟩⟩
  · unfold Document.Distinct
    decide
  · exact not_orderIndependent_of_reverse "B" (by decide +kernel)
  · unfold Document.Distinct
    decide
  · exact not_orderIndependent_of_reverse "B" (by decide +kernel)
  · exact Document.acyclic_of_rank (fun _ => 0) (by decide)
  · exact not_orderIndependent_of_reverse "A.b" (by decide +kernel)
  · unfold Document.Distinct
    decide
  · exact Document.acyclic_of_rank (fun id => if id = "B" then 1 else 0) (by decide)
  · exact not_orderIndependent_of_reverse "B" (by decide +kernel)

end ApiCatalog
