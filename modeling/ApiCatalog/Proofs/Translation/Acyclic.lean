import ApiCatalog.Proofs.Translation.Components

set_option autoImplicit false

/-!
# Documents without cycles

If components do not lead back to themselves, their translations are defined by recursion along the
references, and this is what resolution makes of them, in whatever order it comes to them.

## Main definitions

* `Document.translation`: the translation of a component, with those of the components that it
  refers to.
* `Document.RefersToSchemas`: all references are to component schemas of the document.

## Main results

* `ApiCatalog.Document.Acyclic.wellFounded`: recursion along references comes to an end.
* `ApiCatalog.find?_resolveAll_of_acyclic`: what is registered under a name when all components are
  resolved.
-/

namespace ApiCatalog

namespace Document

variable {document : Document}

/-! ## Recursion along references -/

/-- A component is accessible, since the components on the way to it do not occur again. -/
theorem Acyclic.acc (hacyclic : document.Acyclic) (visited : List String) (id : String)
    (hvisited : ∀ other ∈ visited, Relation.TransGen document.RefersTo other id) :
    Acc (fun other id => document.RefersTo id other) id := by
  refine ⟨_, fun other hrefers => ?_⟩
  have hid : id ∈ document.schemaIds := by
    obtain ⟨node, hfind, -⟩ := hrefers
    exact SortedMap.mem_keys_of_find? hfind
  have hnew : id ∉ visited := fun hmem => hacyclic id (hvisited id hmem)
  have hlt : remaining document.schemaIds (id :: visited) < remaining document.schemaIds visited :=
    remaining_lt hid hnew
  refine hacyclic.acc (id :: visited) other fun start hstart => ?_
  rcases List.mem_cons.1 hstart with rfl | hstart
  · exact .single hrefers
  · exact (hvisited start hstart).tail hrefers
termination_by remaining document.schemaIds visited

/-- **Recursion along references comes to an end** if there are no cycles. -/
theorem Acyclic.wellFounded (hacyclic : document.Acyclic) :
    WellFounded fun other id => document.RefersTo id other :=
  ⟨fun id => hacyclic.acc [] id fun _ hmem => nomatch hmem⟩

/-- The translation of a component under its own id, in which a reference to another component
denotes what that is translated to. -/
def translation (document : Document) (hacyclic : document.Acyclic) (id : String) : Translation :=
  match _hfind : document.schemas.find? id with
  | some (.inline schema) =>
    translateSchema document (fun target =>
      match _hname : targetName? target with
      | some other =>
        if _hmem : target ∈ schema.targets then (translation document hacyclic other).resolution
        else .failed
      | none => .failed) schema id false
  | some (.reference _) => .failed
  | none => .failed
termination_by hacyclic.wellFounded.wrap id
decreasing_by exact ⟨.inline schema, _hfind, target, by rwa [Node.targets], _hname⟩

end Document

/-! ## References to schemas -/

/-- The reference to a component schema of the document itself. -/
def schemaReference (id : String) : String :=
  "#/components/schemas/" ++ id

/-- An id that a reference can name: it is not empty, and has no line break. -/
def Nameable (id : String) : Prop :=
  id.toList.isEmpty = false ∧ id.toList.contains '\n' = false

/-- The characters of a reference to a component schema. -/
theorem toList_schemaReference (id : String) :
    (schemaReference id).toList =
      ['#', '/', 'c', 'o', 'm', 'p', 'o', 'n', 'e', 'n', 't', 's', '/',
        's', 'c', 'h', 'e', 'm', 'a', 's', '/'] ++ id.toList := by
  have happend : ∀ before chars, before.toList = chars →
      (before ++ id).toList = chars ++ id.toList := by
    rintro before _ rfl
    exact String.toList_append
  exact happend _ _ (by decide +kernel)

/-- The parts of a reference to a component schema, if its id can be named. -/
theorem ofPath?_schemaReference (id : String) :
    Reference.ofPath? (schemaReference id) =
      if id.toList.isEmpty || id.toList.contains '\n' then none
      else some ⟨"", "schemas", id⟩ := by
  have hmarker : Reference.marker =
      ['#', '/', 'c', 'o', 'm', 'p', 'o', 'n', 'e', 'n', 't', 's', '/'] := by decide +kernel
  have hkey : String.ofList ['s', 'c', 'h', 'e', 'm', 'a', 's'] = "schemas" := by decide +kernel
  have hsource : String.ofList [] = "" := by decide +kernel
  have hname : String.ofList id.toList = id := String.ofList_toList
  -- what follows does not depend on the id being the end of the reference
  generalize hpath : schemaReference id = path, hrest : id.toList = rest at hname
  have hchars := toList_schemaReference id
  rw [hpath, hrest] at hchars
  rw [Reference.ofPath?, hchars, hmarker]
  simp [Reference.after?, hkey, hsource, hname]

section Nameable

variable {id : String}

/-- A reference to a component that can be named. -/
theorem Nameable.ofPath_eq (h : Nameable id) :
    Reference.ofPath (schemaReference id) = .ok ⟨"", "schemas", id⟩ := by
  rw [Reference.ofPath, ofPath?_schemaReference, h.1, h.2]
  rfl

/-- A reference to a component that cannot be named. -/
theorem ofPath?_of_not_nameable (h : ¬ Nameable id) :
    Reference.ofPath? (schemaReference id) = none := by
  rw [ofPath?_schemaReference, if_pos]
  unfold Nameable at h
  cases hempty : id.toList.isEmpty <;> cases hbreak : id.toList.contains '\n' <;> simp_all

/-- A reference to a component schema begins like any reference within the document. -/
theorem exists_after_internalMarker (id : String) :
    ∃ rest, Reference.after? internalMarker (schemaReference id).toList = some rest := by
  have hmarker : internalMarker =
      ['#', '/', 'c', 'o', 'm', 'p', 'o', 'n', 'e', 'n', 't', 's'] := by decide +kernel
  rw [toList_schemaReference, hmarker]
  exact ⟨_, rfl⟩

/-- The component that is pointed at. -/
theorem Nameable.componentName_eq (h : Nameable id) :
    componentName (schemaReference id) = .ok (some id) := by
  obtain ⟨rest, hafter⟩ := exists_after_internalMarker id
  have hkind : (Reference.mk "" "schemas" id).kind = .ok .schema := rfl
  unfold componentName
  simp only [hafter, h.ofPath_eq, hkind]

/-- The component is looked up among the schemas. -/
theorem Nameable.nameFor_eq (h : Nameable id) :
    Reference.nameFor .schema (schemaReference id) = .ok (.ok id) := by
  have hkind : (Reference.mk "" "schemas" id).kind = .ok .schema := rfl
  rw [Reference.nameFor, h.ofPath_eq]
  simp only [hkind, if_true]

/-- The name in a reference. -/
theorem Nameable.targetName?_eq (h : Nameable id) : targetName? (schemaReference id) = some id :=
  targetName?_of_componentName h.componentName_eq

/-- A reference to a component that cannot be named has no name. -/
theorem targetName?_of_not_nameable (h : ¬ Nameable id) :
    targetName? (schemaReference id) = none := by
  rw [targetName?, ofPath?_of_not_nameable h]
  rfl

/-- A reference to a component that cannot be named cannot be taken apart. -/
theorem componentName_of_not_nameable (h : ¬ Nameable id) :
    componentName (schemaReference id) = .error (.malformedReference (schemaReference id)) := by
  obtain ⟨rest, hafter⟩ := exists_after_internalMarker id
  unfold componentName
  simp only [hafter, Reference.ofPath, ofPath?_of_not_nameable h]

end Nameable

namespace Document

variable {document : Document}

/-- A target is that of some reference in a component. -/
def HasTarget (document : Document) (target : String) : Prop :=
  ∃ id node, document.schemas.find? id = some node ∧ target ∈ node.targets

/-- All references are to component schemas of the document. -/
def RefersToSchemas (document : Document) : Prop :=
  ∀ target, document.HasTarget target → ∃ id ∈ document.schemaIds, target = schemaReference id

/-- The references of a document are those in its entries. -/
theorem refersToSchemas_of_entries
    (h : ∀ entry ∈ document.schemas.entries, ∀ target ∈ entry.2.targets,
      ∃ id ∈ document.schemaIds, target = schemaReference id) : document.RefersToSchemas := by
  rintro target ⟨id, node, hfind, htarget⟩
  exact h (id, node) (SortedMap.mem_entries_of_find? hfind) target htarget

/-- The target of a reference that is met in a component. -/
theorem hasTarget_of_mem_findingsOf {id target : String}
    (h : .reference target ∈ document.findingsOf id) : document.HasTarget target := by
  obtain ⟨schema, hfind⟩ := exists_of_mem_findingsOf h
  rw [findingsOf_of_find? hfind] at h
  have htarget : target ∈ Node.targets (.inline schema) := by
    rw [Node.targets]
    exact mem_targets_of_findings h
  exact ⟨id, .inline schema, hfind, htarget⟩

/-- The translation of a component that is written in place. -/
theorem translation_of_find? {hacyclic : document.Acyclic} {id : String} {schema : Schema}
    (h : document.schemas.find? id = some (.inline schema)) :
    document.translation hacyclic id =
      translateSchema document (fun target =>
        match targetName? target with
        | some other =>
          if target ∈ schema.targets then (document.translation hacyclic other).resolution
          else .failed
        | none => .failed) schema id false := by
  rw [translation]
  split
  · next schema' hfind =>
    rw [h] at hfind
    cases hfind
    refine congrArg (fun follow => translateSchema document follow schema id false) ?_
    funext target
    split <;> rename_i hname
    · rw [hname]
      simp
    · rw [hname]
  · next hfind =>
    rw [h] at hfind
    cases hfind
  · next hfind =>
    rw [h] at hfind
    cases hfind

/-- **The translation of a component by recursion is the one in which other components denote what
they are translated to.** -/
theorem translation_eq (hacyclic : document.Acyclic) (hrefers : document.RefersToSchemas)
    (id : String) :
    document.translation hacyclic id =
      document.translationOf
        (fun other => (document.translation hacyclic other).resolution) id := by
  cases hfind : document.schemas.find? id with
  | none =>
    rw [translation, translationOf]
    split <;> simp_all
  | some node =>
    cases node with
    | reference next =>
      rw [translation, translationOf]
      split <;> simp_all
    | inline schema =>
      rw [translation_of_find? hfind, translationOf_of_find? hfind]
      refine translateSchema_congr fun target hmet => ?_
      have htarget : target ∈ schema.targets := mem_targets_of_findings hmet
      obtain ⟨other, hother, rfl⟩ :=
        hrefers target ⟨id, .inline schema, hfind, by rwa [Node.targets]⟩
      by_cases hname : Nameable other
      · have hne : other ≠ id := by
          rintro rfl
          exact hacyclic other (.single ⟨.inline schema, hfind, _, by rwa [Node.targets],
            hname.targetName?_eq⟩)
        have hsome : (document.schemas.find? other).isSome = true :=
          SortedMap.isSome_find?_of_mem_keys hother
        rw [follow, hname.componentName_eq, hname.targetName?_eq]
        simp only [if_pos htarget, if_neg hne, hsome, if_true]
      · rw [follow, componentName_of_not_nameable hname, targetName?_of_not_nameable hname]

/-- References to component schemas are meant as such. -/
theorem RefersToSchemas.refersByKind (hrefers : document.RefersToSchemas) :
    document.RefersByKind := by
  intro current target other hmet hname _
  obtain ⟨id, -, rfl⟩ := hrefers target (hasTarget_of_mem_findingsOf hmet)
  by_cases hid : Nameable id
  · rw [hid.componentName_eq] at hname
    cases hname
    exact hid.nameFor_eq
  · rw [componentName_of_not_nameable hid] at hname
    cases hname

/-- What components are translated to by recursion is consistent. -/
theorem Acyclic.settled (hacyclic : document.Acyclic) (hplain : ∀ id, ¬ document.IsAlias id)
    (hrefers : document.RefersToSchemas) (hdistinct : document.Distinct) :
    document.Settled fun id => (document.translation hacyclic id).resolution where
  plain := hplain
  distinct := hdistinct
  kinds := hrefers.refersByKind
  answers := fun id _ _ => congrArg Translation.resolution (translation_eq hacyclic hrefers id)
  cycles := fun id _ _ hthere hback =>
    absurd (onCycle_of_uses (hthere.trans hback)) (hacyclic id)

/-- Whether a union admits null is known if the references among its members can be looked up. -/
theorem exists_anyAdmitsNull {members : List Node}
    (h : ∀ target, .reference target ∈ members → ∃ found, document.findSchema target = .ok found) :
    ∃ found, anyAdmitsNull document members = .ok found := by
  induction members with
  | nil => exact ⟨false, rfl⟩
  | cons member rest ih =>
    obtain ⟨found, hrest⟩ := ih fun target htarget => h target (List.mem_cons_of_mem _ htarget)
    have hmember : ∃ admits, admitsNull document member = .ok admits := by
      cases member with
      | inline schema => exact ⟨schema.types.contains .null, rfl⟩
      | reference target =>
        obtain ⟨looked, hlooked⟩ := h target List.mem_cons_self
        have hschema : document.schema (.reference target) = .ok looked := hlooked
        rw [admitsNull, hschema]
        cases looked with
        | error error => exact ⟨false, rfl⟩
        | ok schema => exact ⟨schema.types.contains .null, rfl⟩
    obtain ⟨admits, hadmits⟩ := hmember
    rw [anyAdmitsNull, hadmits]
    cases admits with
    | true => exact ⟨true, rfl⟩
    | false => exact ⟨found, hrest⟩

/-- If all components that are referred to can be named, all references that are met can be taken
apart. -/
theorem readable_of_nameable (hplain : ∀ id, ¬ document.IsAlias id)
    (hrefers : document.RefersToSchemas)
    (hnameable : ∀ id, document.HasTarget (schemaReference id) → Nameable id) :
    document.Readable := by
  have hname : ∀ current target, .reference target ∈ document.findingsOf current →
      ∃ id, componentName target = .ok (some id) := by
    intro current target hmet
    have htarget := hasTarget_of_mem_findingsOf hmet
    obtain ⟨id, -, rfl⟩ := hrefers target htarget
    exact ⟨id, (hnameable id htarget).componentName_eq⟩
  intro current finding hmet
  cases finding with
  | facet name => trivial
  | fault => trivial
  | reference target =>
    obtain ⟨id, hid⟩ := hname current target hmet
    exact ⟨some id, hid⟩
  | union members =>
    have hcovered : ∀ target, OrReference.reference target ∈ members →
        .reference target ∈ document.findingsOf current := by
      obtain ⟨schema, hfind⟩ := exists_of_mem_findingsOf hmet
      rw [findingsOf_of_find? hfind] at hmet ⊢
      exact fun target => coversUnions_findings schema current members target hmet
    refine exists_anyAdmitsNull fun target htarget => ?_
    obtain ⟨id, hid⟩ := hname current target (hcovered target htarget)
    rcases findSchema_of_componentName hplain hid with ⟨schema, -, hfound⟩ | ⟨error, hfound, -⟩
    · exact ⟨.ok schema, hfound⟩
    · exact ⟨.error error, hfound⟩

end Document

/-! ## What is registered -/

/-- **What is registered when all components are resolved, in any order**, if there are neither
aliases nor cycles, all references are to component schemas, and no name belongs to two places:
under each name the model that the translation of some component has for it. The answer for a
component is what its translation denotes. Only a reference to a component that cannot be named puts
an end to the resolution before.

Names that are not met do not have to be distinct: `Document.Distinct` is about the places that
translations come to.

**Proof sketch.** What the components are translated to by recursion is consistent, since no
component comes back to itself, so that `Document.Settled.resolveAll` applies. -/
theorem find?_resolveAll_of_acyclic {document : Document} (hacyclic : document.Acyclic)
    (hplain : ∀ id, ¬ document.IsAlias id) (hrefers : document.RefersToSchemas)
    (hdistinct : document.Distinct) {order : List (String × Node)}
    (horder : order.Perm document.schemas.entries) :
    match resolveAll ⟨document, none⟩ order {} with
    | .ok _ state =>
      (∀ name model, state.repository.find? name = some model ↔
        ∃ id, model ∈ (document.translation hacyclic id).models ∧ model.name = name) ∧
      ∀ id ∈ document.schemaIds,
        state.memo.find? id = some (document.translation hacyclic id).resolution
    | .error _ _ => ∃ id, document.HasTarget (schemaReference id) ∧ ¬ Nameable id := by
  have hends := (hacyclic.settled hplain hrefers hdistinct).resolveAll horder
  cases hrun : resolveAll ⟨document, none⟩ order {} with
  | ok answer state =>
    have hcomplete := hends.post_of_ok hrun
    refine ⟨fun name model => ?_, fun id hid => hcomplete.memo_eq hid⟩
    simp only [hcomplete.find?_eq_some_iff, ← Document.translation_eq hacyclic hrefers]
  | error abort state =>
    by_contra hnone
    push Not at hnone
    exact hends.excuse_of_error hrun (Document.readable_of_nameable hplain hrefers hnone)

/-- An object that refers to an array twice, once in a union with null, and has a property that
fails. -/
def tree : Document :=
  .ofSchemas [
    ("Leaf", .inline { types := .ofList [.array],
                       items := some (.each (.inline { types := .ofList [.string] })) }),
    ("Root", .inline { types := .ofList [.object],
                       properties := [
                         ("left", .reference "#/components/schemas/Leaf"),
                         ("none", .inline {}),
                         ("right", .inline { anyOf := [
                           .reference "#/components/schemas/Leaf",
                           .inline { types := .ofList [.integer] },
                           .inline { types := .ofList [.null] }] })] })]

/-- The models for the components of a document with an object, an array, a union with null and a
failure. -/
theorem find?_resolveAll_tree :
    ∃ hacyclic : tree.Acyclic, ∃ state,
      resolveAll ⟨tree, none⟩ tree.schemas.entries.reverse {} = .ok () state ∧
      ∀ name model, state.repository.find? name = some model ↔
        ∃ id, model ∈ (tree.translation hacyclic id).models ∧ model.name = name := by
  have hacyclic : tree.Acyclic :=
    Document.acyclic_of_rank (fun id => if id = "Root" then 1 else 0) (by decide)
  have hplain : ∀ id, ¬ tree.IsAlias id := Document.not_isAlias_of_entries (by decide)
  have hrefers : tree.RefersToSchemas := Document.refersToSchemas_of_entries (by decide)
  have hdistinct : tree.Distinct := by
    unfold Document.Distinct
    decide
  have h := find?_resolveAll_of_acyclic hacyclic hplain hrefers hdistinct
    tree.schemas.entries.reverse_perm
  have hruns : (match resolveAll ⟨tree, none⟩ tree.schemas.entries.reverse {} with
    | .ok _ _ => true
    | .error _ _ => false) = true := by decide +kernel
  refine ⟨hacyclic, ?_⟩
  cases hrun : resolveAll ⟨tree, none⟩ tree.schemas.entries.reverse {} with
  | ok answer state =>
    rw [hrun] at h
    exact ⟨state, rfl, h.1⟩
  | error abort state =>
    rw [hrun] at hruns
    cases hruns

end ApiCatalog
