import ApiCatalog.Proofs.Extraction.Complaints
import ApiCatalog.Proofs.Http.Words

set_option autoImplicit false

/-!
# What complaints concern

The complaints about a parameter tell the template, and those about the rest of an operation tell
the template and the method, if only in their texts. So what is complained of about an operation can
be told apart from all other complaints about the paths of a document.

## Main definitions

* `Diagnostic.ConcernsParameter`, `Diagnostic.Concerns`: a complaint about a parameter of a path and
  about an operation apart from that.

## Main results

* `Diagnostic.Concerns.unique`: a complaint concerns one operation only.
* `Document.Provides.filter_complaints`: the complaints about an operation with an endpoint.
-/

namespace ApiCatalog

/-! ## The forms of complaints -/

namespace Diagnostic

/-- A complaint about a parameter of a path. -/
def ConcernsParameter (template : String) : Diagnostic → Prop
  | .unnamedParameter path _ => path = template
  | .parameterWithoutSchema path _ => path = template
  | .unresolvedReference hint _ _ =>
    ∃ index : Nat, hint = template ++ " parameter" ++ " " ++ ("#" ++ toString index)
  | _ => False

/-- A complaint about an operation, apart from those about parameters in its list. If it is about a
reference, then two words tell the part of the operation. -/
def Concerns (template : String) (method : HttpMethod) : Diagnostic → Prop
  | .unboundPathParameter path other _ => path = template ∧ other = method
  | .invalidStatusKey path other _ => path = template ∧ other = method
  | .unresolvedReference hint _ _ =>
    ∃ word last : String, hint = method.name ++ " " ++ template ++ " " ++ word ++ " " ++ last ∧
      ' ' ∉ word.toList ∧ ' ' ∉ last.toList ∧ '#' ∉ last.toList
  | _ => False

variable {template template' : String} {method method' : HttpMethod} {diagnostic : Diagnostic}

/-- **A complaint concerns one operation only.** -/
theorem Concerns.unique (h : diagnostic.Concerns template method)
    (h' : diagnostic.Concerns template' method') : template = template' ∧ method = method' := by
  cases diagnostic with
  | unboundPathParameter | invalidStatusKey =>
    obtain ⟨rfl, rfl⟩ := h
    exact h'
  | unresolvedReference hint target message =>
    obtain ⟨word, last, rfl, hword, hlast, -⟩ := h
    obtain ⟨word', last', heq, hword', hlast', -⟩ := h'
    obtain ⟨heq, -⟩ := lastWord_inj hlast hlast' heq
    obtain ⟨heq, -⟩ := lastWord_inj hword hword' heq
    obtain ⟨hname, htemplate⟩ :=
      firstWord_inj method.blank_not_mem_name method'.blank_not_mem_name heq
    exact ⟨htemplate, HttpMethod.name_injective hname⟩
  | _ => exact h.elim

/-- A complaint about an operation is not one about a parameter of a path. -/
theorem Concerns.not_concernsParameter (h : diagnostic.Concerns template method) :
    ¬ diagnostic.ConcernsParameter template' := by
  intro h'
  cases diagnostic with
  | unresolvedReference hint target message =>
    obtain ⟨word, last, rfl, -, hlast, hmark⟩ := h
    obtain ⟨index, heq⟩ := h'
    have hnumber : ' ' ∉ ("#" ++ toString index).toList := by
      intro hmem
      rw [String.toList_append, List.mem_append] at hmem
      rcases hmem with hmem | hmem
      · exact absurd hmem (by decide)
      · exact absurd (isDigit_of_mem_toString hmem) (by decide)
    obtain ⟨-, rfl⟩ := lastWord_inj hlast hnumber heq
    simp at hmark
  | unboundPathParameter | invalidStatusKey => exact h'
  | _ => exact h

end Diagnostic

namespace Document

variable {document : Document} {template : String} {item : PathItem} {method : HttpMethod}
  {operation : Operation} {diagnostic : Diagnostic}

/-- Complaints about parameters concern parameters. -/
theorem concernsParameter_of_mem {index : Nat} {entries : List (OrReference Parameter)}
    (h : diagnostic ∈ document.parameterComplaints template index entries) :
    diagnostic.ConcernsParameter template := by
  obtain ⟨entry, -, hentry⟩ := List.mem_filterMap.1 h
  unfold parameterComplaint? at hentry
  split at hentry
  · cases hentry
  · cases hentry
    exact ⟨entry.2, String.toList_inj.1 (by simp)⟩
  · split at hentry
    · cases hentry
      rfl
    · split at hentry
      · cases hentry
        rfl
      · cases hentry

/-- A complaint about a response concerns its operation. -/
theorem concerns_of_responseComplaint? {entry : String × OrReference Response}
    (h : document.responseComplaint? template method entry = some diagnostic) :
    diagnostic.Concerns template method := by
  unfold responseComplaint? at h
  split at h
  · cases h
    exact ⟨rfl, rfl⟩
  · next status _ =>
    split at h
    · cases h
      refine ⟨"response", status.text, String.toList_inj.1 (by simp), by decide,
        status.blank_not_mem_text, fun hmem => ?_⟩
      exact absurd (StatusKey.mem_text hmem) (by decide)
    · cases h

/-- The complaints about the rest of an operation concern it. -/
theorem concerns_of_mem {parameters : List EndpointParameter}
    (h : diagnostic ∈ unboundComplaints template method parameters ++
      (document.bodyComplaints template method operation ++
        document.responseComplaints template method operation.responseEntries)) :
    diagnostic.Concerns template method := by
  simp only [List.mem_append] at h
  rcases h with h | h | h
  · obtain ⟨parameter, -, rfl⟩ := List.mem_map.1 h
    exact ⟨rfl, rfl⟩
  · unfold bodyComplaints at h
    split at h
    · cases h
    · split at h
      · obtain rfl := List.mem_singleton.1 h
        exact ⟨"request", "body", String.toList_inj.1 (by simp), by decide, by decide, by decide⟩
      · cases h
  · obtain ⟨entry, -, hentry⟩ := List.mem_filterMap.1 h
    exact concerns_of_responseComplaint? hentry

/-- No complaint about a body or a response is about a path parameter. -/
theorem unboundPathParameter_notMem {name : String} (operation : Operation)
    {entries : List (String × OrReference Response)} :
    .unboundPathParameter template method name ∉
      document.bodyComplaints template method operation ++
        document.responseComplaints template method entries := by
  intro h
  rcases List.mem_append.1 h with h | h
  · unfold bodyComplaints at h
    split at h
    · cases h
    · split at h
      · cases List.mem_singleton.1 h
      · cases h
  · obtain ⟨entry, -, hentry⟩ := List.mem_filterMap.1 h
    unfold responseComplaint? at hentry
    split at hentry
    · cases hentry
    · split at hentry <;> cases hentry

/-! ## Complaints about one operation -/

variable {sort : Diagnostic → Bool} {earlier later : List (String × PathItem)}

/-- No complaint about parameters is of a sort that concerns an operation. -/
theorem filter_parameterComplaints
    (hsort : ∀ diagnostic, sort diagnostic = true → diagnostic.Concerns template method)
    (other : String) (index : Nat) (entries : List (OrReference Parameter)) :
    (document.parameterComplaints other index entries).filter sort = [] :=
  List.filter_eq_nil_iff.2 fun diagnostic hmem hof =>
    (hsort diagnostic hof).not_concernsParameter (concernsParameter_of_mem hmem)

/-- What is complained of about an operation apart from the parameters that it lists. -/
theorem filter_operationComplaints
    (hsort : ∀ diagnostic, sort diagnostic = true → diagnostic.Concerns template method)
    (other : String) (item : PathItem) (method' : HttpMethod) (operation : Operation) :
    (document.operationComplaints other item method' operation).filter sort =
      (unboundComplaints other method' (document.parametersOf other item operation).values ++
        (document.bodyComplaints other method' operation ++
          document.responseComplaints other method' operation.responseEntries)).filter sort := by
  rw [operationComplaints, List.filter_append, filter_parameterComplaints hsort, List.nil_append]

/-- Other operations give no reason for complaints of a sort that concerns an operation. -/
theorem filter_operationComplaints_of_ne
    (hsort : ∀ diagnostic, sort diagnostic = true → diagnostic.Concerns template method)
    {other : String} {method' : HttpMethod} (hother : other = template → method' ≠ method)
    (item : PathItem) (operation : Operation) :
    (document.operationComplaints other item method' operation).filter sort = [] := by
  rw [filter_operationComplaints hsort]
  refine List.filter_eq_nil_iff.2 fun diagnostic hmem hof => ?_
  obtain ⟨rfl, rfl⟩ := (hsort diagnostic hof).unique (concerns_of_mem hmem)
  exact hother rfl rfl

/-- Other paths give no reason for complaints of a sort that concerns an operation. -/
theorem filter_pathComplaints_of_ne
    (hsort : ∀ diagnostic, sort diagnostic = true → diagnostic.Concerns template method)
    {other : String} (hother : other ≠ template) (earlier : List (String × PathItem))
    (item : PathItem) : (document.pathComplaints earlier other item).filter sort = [] := by
  have hno : ∀ {diagnostic : Diagnostic}, ¬ diagnostic.Concerns template method →
      ¬ sort diagnostic = true := fun hnot hof => hnot (hsort _ hof)
  rw [pathComplaints, List.filter_append, filter_parameterComplaints hsort, List.nil_append]
  split
  · exact List.filter_eq_nil_iff.2 fun diagnostic hmem =>
      List.mem_singleton.1 hmem ▸ hno id
  · generalize taken earlier other = known
    generalize item.operations = operations
    induction operations generalizing known with
    | nil => rfl
    | cons entry rest ih =>
      rw [operationsComplaints, List.filter_append, ih, List.append_nil]
      split
      · exact List.filter_eq_nil_iff.2 fun diagnostic hmem =>
          List.mem_singleton.1 hmem ▸ hno id
      · exact filter_operationComplaints_of_ne hsort (fun h => absurd h hother) item _

/-- No path before that of an operation that provides a node of a tree with an endpoint has the
method for the same segments. -/
theorem Provides.exists_split {index : PathIndex} {id : Nat} (hbranching : index.Branching)
    (h : document.Provides index id method template item operation) :
    ∃ earlier later, document.pathEntries = earlier ++ (template, item) :: later ∧
      taken earlier template method = false := by
  obtain ⟨-, earlier, later, hsplit, hothers⟩ := List.find?_eq_some_iff_append.1 h.1
  refine ⟨earlier, later, hsplit, ?_⟩
  rw [← isSome_findSome?_contribution hbranching h.leads.2, Option.isSome_eq_false_iff,
    Option.isNone_iff_eq_none, List.findSome?_eq_none_iff]
  exact fun entry hentry => by simpa using hothers entry hentry

/-- **The complaints of a sort that concerns an operation** that provides an endpoint are those that
the operation itself gives reason for. -/
theorem Provides.filter_complaints {index : PathIndex} {id : Nat}
    (h : document.Provides index id method template item operation) (hbranching : index.Branching)
    (hsort : ∀ diagnostic, sort diagnostic = true → diagnostic.Concerns template method) :
    document.complaints.filter sort =
      (unboundComplaints template method (document.parametersOf template item operation).values ++
        (document.bodyComplaints template method operation ++
          document.responseComplaints template method operation.responseEntries)).filter sort := by
  obtain ⟨earlier, later, hsplit, hfree⟩ := h.exists_split hbranching
  have hduplicate : ∀ other, sort (.duplicateMethod template other) = false := fun other =>
    Bool.eq_false_iff.2 fun hof => hsort _ hof
  rw [Document.filter_complaints hsplit fun earlier other otherItem hother =>
      filter_pathComplaints_of_ne hsort hother earlier otherItem, pathComplaints,
    List.filter_append, filter_parameterComplaints hsort, List.nil_append,
    acceptable_iff.1 h.leads.1]
  show (document.operationsComplaints template item _ item.operations).filter sort = _
  rw [filter_operationsComplaints hduplicate (fun other operation hother =>
      filter_operationComplaints_of_ne hsort (fun _ => hother) item operation) _ _, hfree,
    if_neg Bool.false_ne_true, PathItem.find?_operations, h.2]
  exact filter_operationComplaints hsort template item method operation

end Document

end ApiCatalog
