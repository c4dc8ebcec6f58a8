import ApiCatalog.Proofs.Extraction.Segments
import ApiCatalog.Proofs.Resolution.Complaints

set_option autoImplicit false

/-!
# Complaints about paths

What the paths of a document give rise to complain of, apart from schemas: read off the document, in
the order in which an extraction comes to it. A complaint is about one path, and most are about one
operation of it.

## Main definitions

* `Document.parameterComplaints`, `Document.bodyComplaints`, `Document.responseComplaints`,
  `Document.unboundComplaints`: complaints about the parts of an operation.
* `ApiCatalog.taken`: the methods that earlier paths have for the segments of a template.
* `Document.complaints`: the complaints about all paths.

## Main results

* `ApiCatalog.isSome_findSome?_contribution`: which methods are taken can be read off the templates.
* `Document.filter_complaints`, `Document.filter_operationsComplaints`: the complaints of a certain
  sort come from one path, and from one of its operations.
-/

namespace ApiCatalog

/-- Whether a path among some has a method for the segments of a template. -/
def taken (paths : List (String × PathItem)) (template : String) (method : HttpMethod) : Bool :=
  paths.any fun entry => decide (Acceptable entry.1) &&
    decide (templateSegments entry.1 = templateSegments template) &&
      (entry.2.operation? method).isSome

/-- **The methods that a node of a tree has endpoints for** are those that paths with the segments
of its templates have. -/
theorem isSome_findSome?_contribution {document : Document} {index : PathIndex} {id : Nat}
    {template : String} (hbranching : index.Branching) (hfind : index.find? template = some id)
    (paths : List (String × PathItem)) (method : HttpMethod) :
    (paths.findSome? (document.contribution index id method)).isSome =
      taken paths template method := by
  have hprovided : ∀ entry, (document.contribution index id method entry).isSome =
      (decide (Acceptable entry.1) &&
        decide (templateSegments entry.1 = templateSegments template) &&
          (entry.2.operation? method).isSome) := by
    intro entry
    have hleads := hbranching.segments_eq_of_find? hfind entry.1
    rw [Document.contribution]
    split
    · next h => simp [h.1, hleads.1 h.2]
    · next h =>
      rw [hleads] at h
      simp [h]
  rw [Bool.eq_iff_iff, List.findSome?_isSome_iff, taken, List.any_eq_true]
  simp only [hprovided]

namespace Document

variable (document : Document)

/-! ## Parts of operations -/

/-- The complaint about a parameter, which stands with its number in its list: it leads nowhere, has
no name, or declares no schema. -/
def parameterComplaint? (template : String) (entry : OrReference Parameter × Nat) :
    Option Diagnostic :=
  match document.parameter entry.1 with
  | .error _ => none
  | .ok (.error error) =>
    some (.unresolvedReference (template ++ " parameter #" ++ toString entry.2)
      (entry.1.target?.getD "") error.message)
  | .ok (.ok found) =>
    if Text.isBlankText found.name then some (.unnamedParameter template entry.2)
    else match found.schema? with
      | none => some (.parameterWithoutSchema template found.name)
      | some _ => none

/-- The complaints about the parameters of a list, from number `index` on. -/
def parameterComplaints (template : String) (index : Nat)
    (entries : List (OrReference Parameter)) : List Diagnostic :=
  (entries.zipIdx index).filterMap (document.parameterComplaint? template)

/-- The complaints about path parameters that no segment of the template bears the names of. -/
def unboundComplaints (template : String) (method : HttpMethod)
    (parameters : List EndpointParameter) : List Diagnostic :=
  (parameters.filter fun parameter => decide (parameter.location = .path) &&
      decide (parameter.name ∉ parameterNames (templateSegments template))).map
    fun parameter => .unboundPathParameter template method parameter.name

/-- The complaint about a request body that leads nowhere. -/
def bodyComplaints (template : String) (method : HttpMethod) (operation : Operation) :
    List Diagnostic :=
  match operation.requestBody with
  | none => []
  | some body =>
    match document.requestBody body with
    | .ok (.error error) =>
      [.unresolvedReference (method.name ++ " " ++ template ++ " request body")
        (body.target?.getD "") error.message]
    | _ => []

/-- The complaint about a declared response: its key cannot be read, or it leads nowhere. -/
def responseComplaint? (template : String) (method : HttpMethod)
    (entry : String × OrReference Response) : Option Diagnostic :=
  match StatusKey.ofText? entry.1 with
  | none => some (.invalidStatusKey template method entry.1)
  | some status =>
    match document.response entry.2 with
    | .ok (.error error) =>
      some (.unresolvedReference (method.name ++ " " ++ template ++ " response " ++ status.text)
        (entry.2.target?.getD "") error.message)
    | _ => none

/-- The complaints about declared responses. -/
def responseComplaints (template : String) (method : HttpMethod)
    (entries : List (String × OrReference Response)) : List Diagnostic :=
  entries.filterMap (document.responseComplaint? template method)

/-! ## Paths -/

/-- The complaints about an operation that becomes an endpoint. -/
def operationComplaints (template : String) (item : PathItem) (method : HttpMethod)
    (operation : Operation) : List Diagnostic :=
  document.parameterComplaints template 0 operation.parameters ++
    (unboundComplaints template method (document.parametersOf template item operation).values ++
      (document.bodyComplaints template method operation ++
        document.responseComplaints template method operation.responseEntries))

/-- The complaints about operations of a path: those for methods that are taken are duplicates. -/
def operationsComplaints (template : String) (item : PathItem) :
    (HttpMethod → Bool) → List (HttpMethod × Operation) → List Diagnostic
  | _, [] => []
  | known, (method, operation) :: rest =>
    (if known method then [.duplicateMethod template method]
      else document.operationComplaints template item method operation) ++
    operationsComplaints template item (fun other => known other || decide (other = method)) rest

/-- The complaints about a path that comes after others. -/
def pathComplaints (earlier : List (String × PathItem)) (template : String) (item : PathItem) :
    List Diagnostic :=
  document.parameterComplaints template 0 item.parameters ++
    match firstRepeated? [] (templateSegments template) with
    | some segment => [.duplicateParameterSegment template segment]
    | none => document.operationsComplaints template item (taken earlier template) item.operations

/-- The complaints about paths that come after others. -/
def complaintsAfter : List (String × PathItem) → List (String × PathItem) → List Diagnostic
  | _, [] => []
  | earlier, (template, item) :: rest =>
    document.pathComplaints earlier template item ++
      complaintsAfter (earlier ++ [(template, item)]) rest

/-- The complaints about the paths of a document. -/
def complaints : List Diagnostic :=
  document.complaintsAfter [] document.pathEntries

variable {document} {template : String} {item : PathItem} {method : HttpMethod}
  {operation : Operation} {diagnostic : Diagnostic}

/-- A complaint about a response blames no schema. -/
theorem blamesSchema_of_responseComplaint? {entry : String × OrReference Response}
    (h : document.responseComplaint? template method entry = some diagnostic) :
    document.blamesSchema diagnostic = false := by
  unfold responseComplaint? at h
  split at h
  · cases h
    rfl
  · split at h
    · next hfound =>
      cases h
      exact blamesSchema_of_get (by decide) hfound _
    · cases h

/-! ## Complaints of one sort -/

variable {sort : Diagnostic → Bool} {earlier later : List (String × PathItem)}

/-- Paths that give rise to no complaint of a sort. -/
theorem filter_complaintsAfter_eq_nil {paths : List (String × PathItem)}
    (h : ∀ earlier, ∀ entry ∈ paths,
      (document.pathComplaints earlier entry.1 entry.2).filter sort = []) :
    (document.complaintsAfter earlier paths).filter sort = [] := by
  induction paths generalizing earlier with
  | nil => rfl
  | cons entry rest ih =>
    rw [complaintsAfter, List.filter_append, h earlier entry List.mem_cons_self, List.nil_append]
    exact ih fun earlier other hother => h earlier other (List.mem_cons_of_mem _ hother)

/-- The complaints about some paths and then others. -/
theorem complaintsAfter_append (paths : List (String × PathItem)) :
    document.complaintsAfter earlier (paths ++ later) =
      document.complaintsAfter earlier paths ++
        document.complaintsAfter (earlier ++ paths) later := by
  induction paths generalizing earlier with
  | nil => rw [List.nil_append, List.append_nil, complaintsAfter, List.nil_append]
  | cons entry rest ih =>
    rw [List.cons_append, complaintsAfter, ih, complaintsAfter, List.append_assoc,
      List.append_assoc]
    rfl

/-- **The complaints of a sort come from one path**, if they come from no other template. -/
theorem filter_complaints (hsplit : document.pathEntries = earlier ++ (template, item) :: later)
    (hothers : ∀ earlier other otherItem, other ≠ template →
      (document.pathComplaints earlier other otherItem).filter sort = []) :
    document.complaints.filter sort =
      (document.pathComplaints earlier template item).filter sort := by
  have hnodup := document.nodup_templates
  rw [hsplit, List.map_append, List.map_cons, List.nodup_middle, List.nodup_cons,
    ← List.map_append] at hnodup
  have hdistinct : ∀ entry ∈ earlier ++ later, entry.1 ≠ template :=
    fun entry hentry hsame => hnodup.1 (List.mem_map.2 ⟨entry, hentry, hsame⟩)
  rw [complaints, hsplit, complaintsAfter_append, complaintsAfter, List.filter_append,
    List.filter_append, filter_complaintsAfter_eq_nil, filter_complaintsAfter_eq_nil,
    List.nil_append, List.nil_append, List.append_nil]
  · exact fun _ entry hentry =>
      hothers _ _ _ (hdistinct entry (List.mem_append_right _ hentry))
  · exact fun _ entry hentry =>
      hothers _ _ _ (hdistinct entry (List.mem_append_left _ hentry))

/-- **The complaints of a sort come from one operation of a path**, the first for its method, if
they come from no other method and no duplicate is of that sort.

**Proof sketch.** Induction on the operations. Once the operation was taken up, its method is
known. -/
theorem filter_operationsComplaints
    (hduplicate : ∀ other, sort (.duplicateMethod template other) = false)
    (hothers : ∀ other operation, other ≠ method →
      (document.operationComplaints template item other operation).filter sort = [])
    (known : HttpMethod → Bool) (operations : List (HttpMethod × Operation)) :
    (document.operationsComplaints template item known operations).filter sort =
      if known method then []
      else ((operations.find? fun entry => entry.1 = method).map fun entry =>
        (document.operationComplaints template item method entry.2).filter sort).getD [] := by
  induction operations generalizing known with
  | nil =>
    rw [operationsComplaints]
    split <;> rfl
  | cons entry rest ih =>
    obtain ⟨other, operation⟩ := entry
    rw [operationsComplaints, List.filter_append, ih]
    by_cases hsame : other = method
    · subst hsame
      cases hknown : known other with
      | true => simp [hduplicate]
      | false => simp
    · have hhead : (if known other = true then [.duplicateMethod template other]
          else document.operationComplaints template item other operation).filter sort = [] := by
        split
        · simp [hduplicate]
        · exact hothers other operation hsame
      rw [hhead, List.nil_append]
      simp [hsame, Ne.symm hsame]

end Document

end ApiCatalog
