import ApiCatalog.Document.Lookup
import Mathlib.Logic.Relation

set_option autoImplicit false

/-!
# References between components

The graph of a document's component schemas: one component refers to another if there is, anywhere
in it, a reference with the name of the other, whatever that reference says besides. Components
that are references themselves are nodes of this graph like any others, so what a reference leads
to through aliases is reached by a path.

## Main definitions

* `ApiCatalog.Node.targets`: the targets of the references in a node, at any depth.
* `Document.RefersTo`: one component refers to another.
* `Document.OnCycle`, `Document.Acyclic`: components that lead back to themselves.
* `Document.StandsFor`: the schema of a component, through any number of aliases.

## Main results

* `Document.mem_of_onCycle`: a criterion for where the cycles of a document are.
* `Document.acyclic_of_rank`: a criterion for documents without cycles.
* `ApiCatalog.standsFor_of_findSchema`: a reference leads to what the component named stands for.
* `ApiCatalog.transGen_of_findSchema`: what the schema that a reference leads to mentions is
  reached from the component that the reference names.
-/

namespace ApiCatalog

/-! ## Targets -/

mutual

/-- The targets of the references in a node, at any depth. -/
def Node.targets : Node → List String
  | .reference target => [target]
  | .inline schema => schema.targets

/-- The targets of the references in a schema, at any depth. -/
def Schema.targets : Schema → List String
  | { types := _, oneOf, allOf, anyOf, literals := _, properties, required := _, items } =>
    memberTargets oneOf ++ memberTargets allOf ++ memberTargets anyOf ++
      propertyTargets properties ++ itemTargets items

/-- The targets of the references in a list of nodes. -/
def memberTargets : List Node → List String
  | [] => []
  | member :: rest => member.targets ++ memberTargets rest

/-- The targets of the references in properties. -/
def propertyTargets : List (String × Node) → List String
  | [] => []
  | (_, node) :: rest => node.targets ++ propertyTargets rest

/-- The targets of the references in the items of an array. -/
def itemTargets : Option (Items Node) → List String
  | none => []
  | some (.always _) => []
  | some (.each node) => node.targets

end

/-- The name in a target, whatever its source and the kind of component it asks for. -/
def targetName? (target : String) : Option String :=
  (Reference.ofPath? target).map Reference.name

namespace Document

variable (document : Document)

/-- One component schema is, or contains, a reference with the name of another. -/
def RefersTo (id other : String) : Prop :=
  ∃ node, document.schemas.find? id = some node ∧ ∃ target ∈ node.targets,
    targetName? target = some other

/-- A component leads back to itself through references. -/
def OnCycle (id : String) : Prop :=
  Relation.TransGen document.RefersTo id id

/-- No component leads back to itself. -/
def Acyclic : Prop :=
  ∀ id, ¬ document.OnCycle id

/-- A component is itself a reference. -/
def IsAlias (id : String) : Prop :=
  ∃ target, document.schemas.find? id = some (.reference target)

/-- A document with certain component schemas and nothing else. -/
def ofSchemas (schemas : List (String × Node)) : Document where
  openapi := "3.1.0"
  title := ""
  version := ""
  components := some { schemas := .ofList schemas }

variable {document}

/-- No component is an alias if no entry is a reference. -/
theorem not_isAlias_of_entries (h : ∀ entry ∈ document.schemas.entries, entry.2.target? = none)
    (id : String) : ¬ document.IsAlias id := by
  rintro ⟨target, hfind⟩
  have hnone := h _ (SortedMap.mem_entries_of_find? hfind)
  cases hnone

/-- If references lead to components of smaller rank, or of the same rank from certain components,
then only these lead back to themselves.

**Proof sketch.** Ranks do not grow along references, so that on the way back to a component all of
them are the same. The first step is then one from those components. -/
theorem mem_of_onCycle (rank : String → Nat) (core : List String)
    (h : ∀ entry ∈ document.schemas.entries, ∀ target ∈ entry.2.targets,
      ∀ other ∈ targetName? target,
        rank other < rank entry.1 ∨ (entry.1 ∈ core ∧ rank other = rank entry.1))
    {id : String} (hcycle : document.OnCycle id) : id ∈ core := by
  have hstep : ∀ {a b : String}, document.RefersTo a b →
      rank b < rank a ∨ (a ∈ core ∧ rank b = rank a) := by
    rintro a b ⟨node, hfind, target, htarget, hother⟩
    exact h (a, node) (SortedMap.mem_entries_of_find? hfind) target htarget b hother
  have hle : ∀ {a b : String}, Relation.ReflTransGen document.RefersTo a b → rank b ≤ rank a := by
    intro a b hab
    induction hab with
    | refl => exact Nat.le_refl _
    | tail _ hbc ih =>
      have hlast := hstep hbc
      omega
  obtain ⟨first, hfirst, hrest⟩ := Relation.TransGen.head'_iff.1 hcycle
  have hback := hle hrest
  rcases hstep hfirst with hlt | ⟨hcore, -⟩
  · omega
  · exact hcore

/-- If every reference leads to a component of smaller rank, no component leads back to itself. -/
theorem acyclic_of_rank (rank : String → Nat)
    (h : ∀ entry ∈ document.schemas.entries, ∀ target ∈ entry.2.targets,
      ∀ other ∈ targetName? target, rank other < rank entry.1) : document.Acyclic := by
  intro id hcycle
  have hnone : id ∈ [] := mem_of_onCycle rank [] (fun entry hentry target htarget other hother =>
    .inl (h entry hentry target htarget other hother)) hcycle
  cases hnone

end Document

/-! ## What a reference leads to -/

/-- A target that can be taken apart has the name of the reference in it. -/
theorem targetName?_of_ofPath {target : String} {reference : Reference}
    (h : Reference.ofPath target = .ok reference) : targetName? target = some reference.name := by
  unfold Reference.ofPath at h
  split at h
  · next reference' hr =>
    cases h
    simp [targetName?, hr]
  · cases h

/-- The component that a target points at is the name in it. -/
theorem targetName?_of_componentName {target id : String}
    (h : componentName target = .ok (some id)) : targetName? target = some id := by
  obtain ⟨reference, hr, rfl⟩ := ofPath_of_componentName h
  exact targetName?_of_ofPath hr

/-- The name that a target is looked up under is the name in it. -/
theorem targetName?_of_nameFor {kind : ComponentKind} {target name : String}
    (h : Reference.nameFor kind target = .ok (.ok name)) : targetName? target = some name := by
  obtain ⟨reference, hr, rfl⟩ := nameFor_eq_of_ofPath h
  exact targetName?_of_ofPath hr

/-- A look-up by way of the entry that the reference names. -/
theorem lookUpFrom_of_nameFor {α : Type} {kind : ComponentKind}
    {entries : SortedMap (OrReference α)} {visited : List String} {target name : String}
    (h : Reference.nameFor kind target = .ok (.ok name)) :
    lookUpFrom kind entries visited target =
      match entries.find? name with
      | none => .ok (.error (.unresolvable target))
      | some (.inline value) => .ok (.ok value)
      | some (.reference next) =>
        if name ∈ visited then .error (.endlessAlias target)
        else lookUpFrom kind entries (name :: visited) next := by
  rw [lookUpFrom, h]
  simp only
  split <;> simp_all

/-- A target whose look-up succeeds has a name. -/
theorem targetName?_of_lookUpFrom {α : Type} {kind : ComponentKind}
    {entries : SortedMap (OrReference α)} {visited : List String} {target : String} {value : α}
    (h : lookUpFrom kind entries visited target = .ok (.ok value)) :
    ∃ name, targetName? target = some name := by
  rw [lookUpFrom] at h
  split at h
  · cases h
  · cases h
  · next name hname => exact ⟨name, targetName?_of_nameFor hname⟩

/-- The schema of a component: what is written in place, or what an alias leads to. -/
inductive Document.StandsFor (document : Document) : String → Schema → Prop
  | inPlace {id : String} {schema : Schema}
      (hfind : document.schemas.find? id = some (.inline schema)) : StandsFor document id schema
  | viaAlias {id next other : String} {schema : Schema}
      (hfind : document.schemas.find? id = some (.reference next))
      (hnext : targetName? next = some other) (hother : StandsFor document other schema) :
      StandsFor document id schema

namespace Document.StandsFor

variable {document : Document} {id : String} {schema : Schema}

/-- A component stands for one schema only. -/
theorem unique {schema' : Schema} (h : document.StandsFor id schema)
    (h' : document.StandsFor id schema') : schema = schema' := by
  induction h with
  | inPlace hfind =>
    cases h' with
    | inPlace hfind' =>
      rw [hfind] at hfind'
      cases hfind'
      rfl
    | viaAlias hfind' =>
      rw [hfind] at hfind'
      cases hfind'
  | viaAlias hfind hnext _ ih =>
    cases h' with
    | inPlace hfind' =>
      rw [hfind] at hfind'
      cases hfind'
    | viaAlias hfind' hnext' hother' =>
      rw [hfind] at hfind'
      cases hfind'
      rw [hnext] at hnext'
      cases hnext'
      exact ih hother'

/-- References lead from a component to the one in whose place its schema is written. -/
theorem exists_reflTransGen (h : document.StandsFor id schema) :
    ∃ last, Relation.ReflTransGen document.RefersTo id last ∧
      document.schemas.find? last = some (.inline schema) := by
  induction h with
  | inPlace hfind => exact ⟨_, .refl, hfind⟩
  | viaAlias hfind hnext _ ih =>
    obtain ⟨last, hlast, hfound⟩ := ih
    exact ⟨last, .head ⟨_, hfind, _, by simp [Node.targets], hnext⟩ hlast, hfound⟩

end Document.StandsFor

/-- A look-up that succeeds finds what the component stands for that was named.

**Proof sketch.** Induction along the look-up: an alias names the component looked up next. -/
theorem standsFor_of_lookUpFrom {document : Document} {visited : List String}
    {target id : String} {schema : Schema}
    (h : lookUpFrom .schema document.schemas visited target = .ok (.ok schema))
    (hid : targetName? target = some id) : document.StandsFor id schema := by
  induction visited, target using lookUpFrom.induct .schema document.schemas generalizing id with
  | case1 visited target abort hname =>
    rw [lookUpFrom, hname] at h
    cases h
  | case2 visited target error hname =>
    rw [lookUpFrom, hname] at h
    cases h
  | case3 visited target name hname hfind =>
    rw [lookUpFrom_of_nameFor hname, hfind] at h
    cases h
  | case4 visited target name hname value hfind =>
    rw [lookUpFrom_of_nameFor hname, hfind] at h
    cases h
    obtain rfl : name = id := Option.some.inj ((targetName?_of_nameFor hname).symm.trans hid)
    exact .inPlace hfind
  | case5 visited target name hname next hfind hvisited =>
    rw [lookUpFrom_of_nameFor hname, hfind] at h
    simp only [if_pos hvisited] at h
    cases h
  | case6 visited target name hname next hfind hvisited ih =>
    rw [lookUpFrom_of_nameFor hname, hfind] at h
    simp only [if_neg hvisited] at h
    obtain rfl : name = id := Option.some.inj ((targetName?_of_nameFor hname).symm.trans hid)
    -- the next target can be taken apart, since its look-up succeeded
    obtain ⟨next', hnext⟩ := targetName?_of_lookUpFrom h
    exact .viaAlias hfind hnext (ih h hnext)

/-- A reference leads to what the component stands for that it names. -/
theorem standsFor_of_findSchema {document : Document} {target id : String} {schema : Schema}
    (hid : componentName target = .ok (some id))
    (h : document.findSchema target = .ok (.ok schema)) : document.StandsFor id schema :=
  standsFor_of_lookUpFrom h (targetName?_of_componentName hid)

/-- **What a reference leads to is reached from the component it names**: whatever the schema
mentions that the reference leads to. -/
theorem transGen_of_findSchema {document : Document} {target id : String} {schema : Schema}
    (hid : componentName target = .ok (some id))
    (h : document.findSchema target = .ok (.ok schema)) {inner other : String}
    (hinner : inner ∈ schema.targets) (hother : targetName? inner = some other) :
    Relation.TransGen document.RefersTo id other := by
  obtain ⟨last, hlast, hfound⟩ := (standsFor_of_findSchema hid h).exists_reflTransGen
  have hstep : document.RefersTo last other :=
    ⟨.inline schema, hfound, inner, by rwa [Node.targets], hother⟩
  exact .tail' hlast hstep

end ApiCatalog
