import ApiCatalog.Proofs.Analysis.Bindings
import ApiCatalog.Proofs.Extraction.Omissions

set_option autoImplicit false

/-!
# Entries that might as well be deleted

An entry of a path that is rejected is reported, and has no other effect: the analysis of the
document without that entry finds the same, and lacks the report. Only the numbers of parameters
that come after a deleted one in its list are other ones in the reports of them.

## Main definitions

* `Document.Admits`: an operation becomes an endpoint.
* `Document.Rejects`: an entry is rejected, and reported by a diagnostic.
* `PathEntry.Renumbers`: how later reports change if an entry is deleted.

## Main results

* `ApiCatalog.exists_rejects_of_analyze`: whatever is reported of an entry, it is rejected.
* `ApiCatalog.analyze_of_turn`: what is lacking after the turn of a path is lacking in the analysis.
* `ApiCatalog.analyze_without`: an analysis without a rejected entry.
-/

namespace ApiCatalog

/-! ## Entries that are rejected -/

namespace Document

variable (document : Document)

/-- An operation becomes an endpoint: its template names no parameter twice, and no path before its
own has its method for the same segments. -/
def Admits (template : String) (method : HttpMethod) (operation : Operation) : Prop :=
  ∃ earlier item later, document.pathEntries = earlier ++ (template, item) :: later ∧
    Acceptable template ∧ taken earlier template method = false ∧
    item.operation? method = some operation

/-- An entry is rejected, and reported by a diagnostic: a parameter that leads nowhere, has no name
or declares no schema, a request body that leads nowhere, or a response whose key cannot be read or
that leads nowhere. The parameters that operations share are looked at with every path, the parts of
an operation only if it becomes an endpoint. -/
inductive Rejects : PathEntry → Diagnostic → Prop
  | sharedParameter {template : String} {item : PathItem} {position : Nat}
      {parameter : OrReference Parameter} {diagnostic : Diagnostic}
      (path : (template, item) ∈ document.pathEntries)
      (declared : item.parameters[position]? = some parameter)
      (complaint : document.parameterComplaint? template (parameter, position) = some diagnostic) :
      Rejects (.sharedParameter template position) diagnostic
  | ownParameter {template : String} {method : HttpMethod} {operation : Operation} {position : Nat}
      {parameter : OrReference Parameter} {diagnostic : Diagnostic}
      (admits : document.Admits template method operation)
      (declared : operation.parameters[position]? = some parameter)
      (complaint : document.parameterComplaint? template (parameter, position) = some diagnostic) :
      Rejects (.ownParameter template method position) diagnostic
  | requestBody {template : String} {method : HttpMethod} {operation : Operation}
      {diagnostic : Diagnostic} (admits : document.Admits template method operation)
      (complaint : diagnostic ∈ document.bodyComplaints template method operation) :
      Rejects (.requestBody template method) diagnostic
  | response {template : String} {method : HttpMethod} {operation : Operation} {key : String}
      {response : OrReference Response} {diagnostic : Diagnostic}
      (admits : document.Admits template method operation)
      (declared : (key, response) ∈ operation.responseEntries)
      (complaint : document.responseComplaint? template method (key, response) = some diagnostic) :
      Rejects (.response template method key) diagnostic

end Document

/-! ## What is reported of entries -/

/-- Whether a diagnostic reports an entry of a path, or a schema that leads nowhere. -/
def Diagnostic.isOfEntry : Diagnostic → Bool
  | .invalidStatusKey .. | .unnamedParameter .. | .parameterWithoutSchema ..
  | .unresolvedReference .. => true
  | _ => false

namespace Document

variable {document : Document} {template : String} {item : PathItem} {diagnostic : Diagnostic}

/-- A complaint about a parameter is about one with a position. -/
theorem exists_of_mem_parameterComplaints {entries : List (OrReference Parameter)}
    (h : diagnostic ∈ document.parameterComplaints template 0 entries) :
    ∃ position parameter, entries[position]? = some parameter ∧
      document.parameterComplaint? template (parameter, position) = some diagnostic := by
  obtain ⟨⟨parameter, position⟩, hmem, hcomplaint⟩ := List.mem_filterMap.1 h
  exact ⟨position, parameter, List.mem_zipIdx_iff_getElem?.1 hmem, hcomplaint⟩

/-- What is complained of in an operation that becomes an endpoint is a rejected entry. -/
theorem exists_rejects_of_mem_operationComplaints {method : HttpMethod} {operation : Operation}
    (hadmits : document.Admits template method operation) (hentry : diagnostic.isOfEntry = true)
    (h : diagnostic ∈ document.operationComplaints template item method operation) :
    ∃ entry, document.Rejects entry diagnostic := by
  rcases List.mem_append.1 h with h | h
  · obtain ⟨position, parameter, hdeclared, hcomplaint⟩ := exists_of_mem_parameterComplaints h
    exact ⟨_, .ownParameter hadmits hdeclared hcomplaint⟩
  rcases List.mem_append.1 h with h | h
  · obtain ⟨parameter, -, rfl⟩ := List.mem_map.1 h
    cases hentry
  rcases List.mem_append.1 h with h | h
  · exact ⟨_, .requestBody hadmits h⟩
  · obtain ⟨⟨key, response⟩, hdeclared, hcomplaint⟩ := List.mem_filterMap.1 h
    exact ⟨_, .response hadmits hdeclared hcomplaint⟩

/-- What is complained of in operations is a rejected entry, if those whose method is not known
become endpoints. -/
theorem exists_rejects_of_mem_operationsComplaints {known : HttpMethod → Bool}
    {operations : List (HttpMethod × Operation)}
    (hadmits : ∀ entry ∈ operations, known entry.1 = false →
      document.Admits template entry.1 entry.2) (hentry : diagnostic.isOfEntry = true)
    (h : diagnostic ∈ document.operationsComplaints template item known operations) :
    ∃ entry, document.Rejects entry diagnostic := by
  induction operations generalizing known with
  | nil => cases h
  | cons entry rest ih =>
    obtain ⟨method, operation⟩ := entry
    obtain ⟨hfirst, hrest⟩ := List.forall_mem_cons.1 hadmits
    rcases List.mem_append.1 h with h | h
    · split at h
      · obtain rfl := List.mem_singleton.1 h
        cases hentry
      · next hnew =>
        exact exists_rejects_of_mem_operationComplaints (hfirst (by simpa using hnew)) hentry h
    · exact ih (fun other hother hnew => hrest other hother (Bool.or_eq_false_iff.1 hnew).1) h

/-- What is complained of in a path is a rejected entry. -/
theorem exists_rejects_of_mem_pathComplaints {earlier later : List (String × PathItem)}
    (hsplit : document.pathEntries = earlier ++ (template, item) :: later)
    (hentry : diagnostic.isOfEntry = true)
    (h : diagnostic ∈ document.pathComplaints earlier template item) :
    ∃ entry, document.Rejects entry diagnostic := by
  rcases List.mem_append.1 h with h | h
  · obtain ⟨position, parameter, hdeclared, hcomplaint⟩ := exists_of_mem_parameterComplaints h
    exact ⟨_, .sharedParameter (by simp [hsplit]) hdeclared hcomplaint⟩
  split at h
  · obtain rfl := List.mem_singleton.1 h
    cases hentry
  · next hacceptable =>
    refine exists_rejects_of_mem_operationsComplaints (fun entry hmem hfree => ?_) hentry h
    obtain ⟨offered, -, hoffered⟩ := List.mem_filterMap.1 hmem
    obtain ⟨operation, hoperation, rfl⟩ := Option.map_eq_some_iff.1 hoffered
    exact ⟨earlier, item, later, hsplit, acceptable_iff.2 hacceptable, hfree, hoperation⟩

/-- What is complained of in paths is a rejected entry. -/
theorem exists_rejects_of_mem_complaintsAfter {earlier paths : List (String × PathItem)}
    (hsplit : document.pathEntries = earlier ++ paths) (hentry : diagnostic.isOfEntry = true)
    (h : diagnostic ∈ document.complaintsAfter earlier paths) :
    ∃ entry, document.Rejects entry diagnostic := by
  induction paths generalizing earlier with
  | nil => cases h
  | cons path rest ih =>
    rcases List.mem_append.1 h with h | h
    · exact exists_rejects_of_mem_pathComplaints hsplit hentry h
    · exact ih (by rw [hsplit, List.append_assoc]; rfl) h

end Document

/-- **Whatever is reported of an entry, it is rejected**: the diagnostics of an analysis that report
entries of paths, and not schemas, are those of rejected entries. -/
theorem exists_rejects_of_analyze {document : Document} {options : Options} {analysis : Analysis}
    {diagnostic : Diagnostic} (h : analyze document options = .ok analysis)
    (hmem : diagnostic ∈ analysis.diagnostics) (hentry : diagnostic.isOfEntry = true)
    (hblames : document.blamesSchema diagnostic = false) :
    ∃ entry, document.Rejects entry diagnostic := by
  obtain ⟨state, hextract, hend, rfl⟩ := analyze_ok h
  refine Document.exists_rejects_of_mem_complaintsAfter (List.nil_append _).symm hentry ?_
  rw [← Document.complaints, ← complaints_of_extract hextract hend]
  exact List.mem_filter.2 ⟨hmem, by rw [hblames]; rfl⟩

/-! ## Analyses that lack a report -/

/-- In what way reports that come after that of an entry change if the entry is deleted: parameters
move up in their list. -/
def PathEntry.Renumbers : PathEntry → Diagnostic → Diagnostic → Prop
  | .sharedParameter template _ | .ownParameter template _ _ => Diagnostic.Renumbered template
  | .requestBody .. | .response .. => Eq

section Analysis

variable {document : Document} {options : Options} {analysis : Analysis} {diagnostic : Diagnostic}
  {renumbers : Diagnostic → Diagnostic → Prop} {template : String} {item : PathItem}
  {earlier later : List (String × PathItem)}

/-- **What is lacking after the turn of a path is lacking in the analysis**, which finds the same
apart from that.

**Proof sketch.** Up to that turn both analyses do the same. After it, none of them asks for
diagnostics. -/
theorem analyze_of_turn {document' : Document} {item' : PathItem}
    (h : analyze document options = .ok analysis)
    (hsame : ∀ other, renumbers other other)
    (hcomponents : document'.components = document.components)
    (hsplit : document.pathEntries = earlier ++ (template, item) :: later)
    (hsplit' : document'.pathEntries = earlier ++ (template, item') :: later)
    (hturn : ∀ before after, document.Indexed earlier before →
      before.resolver.cancelled = false → before.index.Branching →
      Extraction.extractPath ⟨document, options.cancelAt⟩ template item before = .ok () after →
      after.resolver.cancelled = false →
      ∃ after', Extraction.extractPath ⟨document, options.cancelAt⟩ template item' before =
        .ok () after' ∧ after.Spared renumbers diagnostic after') :
    ∃ analysis', analyze document' options = .ok analysis' ∧
      analysis'.models = analysis.models ∧ analysis'.paths = analysis.paths ∧
      analysis'.bindings = analysis.bindings ∧
      Lacks renumbers diagnostic analysis.diagnostics analysis'.diagnostics := by
  obtain ⟨state, hextract, hend, rfl⟩ := analyze_ok h
  obtain ⟨passed, hpaths, hrest⟩ := extract_passes hextract
  have hpassed : passed.resolver.cancelled = false := by
    rcases hrest with ⟨-, hrest⟩ | ⟨-, rfl⟩
    · exact (Extraction.grows_extractComponents hrest).1.not_cancelled hend
    · exact hend
  obtain ⟨before, after, hprecedes, hindexed, hactive, htaken, hgrows, -, hremains⟩ :=
    Extraction.exists_turn_of_path hsplit indexed_initialState hpaths hpassed
  have hearlier : earlier ⊆ document.pathEntries := fun _ h => by simp [hsplit, h]
  have hlater : later ⊆ document.pathEntries := fun _ h => by simp [hsplit, h]
  have hbranching : before.index.Branching :=
    (Extraction.growsTo_extractPaths hearlier hprecedes).branching PathIndex.branching_empty
  obtain ⟨after', htaken', hspared⟩ :=
    hturn before after hindexed hactive hbranching htaken (hgrows.not_cancelled hpassed)
  obtain ⟨passed', hpaths', hspared⟩ :=
    Extraction.spared_extractPaths hsame hlater hprecedes hactive htaken' hspared hremains
  rw [← hsplit', ← Extraction.extractPaths_congr hcomponents] at hpaths'
  obtain ⟨state', hpasses, hspared⟩ : ∃ state', passes document' options options.initialState =
      .ok () state' ∧ state.Spared renumbers diagnostic state' := by
    have hschemas : document'.schemas = document.schemas := by
      simp only [Document.schemas, Document.allComponents, hcomponents]
    unfold passes Extraction.passesWith
    rw [Extraction.extractPaths] at hpaths'
    rw [Extraction.bind_of_ok hpaths']
    rcases hrest with ⟨hincluded, hrest⟩ | ⟨hexcluded, rfl⟩
    · rw [if_pos hincluded, hschemas, Extraction.extractComponents_congr hcomponents]
      exact ((Extraction.respects_spared hsame options.cancelAt).extractComponents _).ok_of_ok
        hspared hrest
    · rw [if_neg (by rw [hexcluded]; exact Bool.false_ne_true)]
      exact ⟨passed', rfl, hspared⟩
  obtain ⟨diagnostics, rfl, ⟨hcancelled, -⟩ | hlacks⟩ := hspared
  · cases hend.symm.trans hcancelled
  · refine ⟨.ofState (state.withDiagnostics diagnostics), ?_, rfl, rfl, rfl, hlacks⟩
    unfold analyze extract
    rw [hpasses]
    exact if_neg (by rw [Bool.not_eq_true]; exact hend)

/-- What is lacking if a part of an operation is deleted that is rejected. -/
theorem analyze_of_omits {method : HttpMethod} {operation : Operation}
    {change : Operation → Operation} (h : analyze document options = .ok analysis)
    (hsame : ∀ other, renumbers other other)
    (hadmits : document.Admits template method operation)
    (homits : document.operationRequests template method operation ⊆ document.requests →
      Extraction.Omits document options.cancelAt template method renumbers diagnostic operation
        (change operation)) :
    ∃ analysis', analyze (document.modifyOperation template method change) options =
        .ok analysis' ∧
      analysis'.models = analysis.models ∧ analysis'.paths = analysis.paths ∧
      analysis'.bindings = analysis.bindings ∧
      Lacks renumbers diagnostic analysis.diagnostics analysis'.diagnostics := by
  obtain ⟨earlier, item, later, hsplit, hacceptable, hfree, hoperation⟩ := hadmits
  have hpath : (template, item) ∈ document.pathEntries := by simp [hsplit]
  have hmem : (method, operation) ∈ item.operations := by
    refine List.mem_of_find?_eq_some ((item.find?_operations method).trans ?_)
    rw [hoperation]
    rfl
  have hrequests := List.Subset.trans (Document.operationRequests_subset hmem)
    (Document.pathRequests_subset hpath)
  exact analyze_of_turn h hsame rfl hsplit (Document.pathEntries_modifyPath hsplit _)
    fun before after hindexed hactive hbranching hturn hend =>
      Extraction.spared_of_operation hsame hpath hindexed hactive hbranching hacceptable hfree
        hoperation (homits hrequests) hturn hend

/-- A list without one of its elements. -/
theorem exists_eraseIdx {α : Type} {list : List α} {position : Nat} {a : α}
    (h : list[position]? = some a) : ∃ earlier later, list = earlier ++ a :: later ∧
      list.eraseIdx position = earlier ++ later ∧ earlier.length = position := by
  obtain ⟨hlt, rfl⟩ := List.getElem?_eq_some_iff.1 h
  refine ⟨list.take position, list.drop (position + 1), ?_, List.eraseIdx_eq_take_drop_succ _ _,
    List.length_take_of_le hlt.le⟩
  rw [List.getElem_cons_drop, List.take_append_drop]

/-- **An analysis without a rejected entry**: if an entry is rejected in a run that is not
cancelled, then the document without that entry is analysed as well, with the same models in the
same order, the same index with its endpoints and bound nodes, and the same bindings. What is
reported is the same but for the diagnostic of the entry, and the numbers of parameters that came
after it.

**Proof sketch.** Up to the turn of the entry both runs do the same. In its turn, one run reports it
and the other one does not come across it. From then on both runs do the same again, as none of
their steps depends on diagnostics; and when the method of the operation is offered again, it is a
duplicate in both of them. -/
theorem analyze_without {entry : PathEntry} (h : analyze document options = .ok analysis)
    (hrejects : document.Rejects entry diagnostic) :
    ∃ analysis', analyze (document.without entry) options = .ok analysis' ∧
      analysis'.models = analysis.models ∧ analysis'.paths = analysis.paths ∧
      analysis'.bindings = analysis.bindings ∧
      ∃ before after after', analysis.diagnostics = before ++ diagnostic :: after ∧
        analysis'.diagnostics = before ++ after' ∧ List.Forall₂ entry.Renumbers after after' := by
  cases hrejects with
  | @sharedParameter template item position parameter _ path declared complaint =>
    obtain ⟨earlier, later, hparameters, herase, rfl⟩ := exists_eraseIdx declared
    obtain ⟨earlierPaths, laterPaths, hsplit⟩ := List.append_of_mem path
    refine analyze_of_turn h .same rfl hsplit (Document.pathEntries_modifyPath hsplit _)
      fun before after _ _ _ hturn _ => ?_
    rw [herase]
    exact (Extraction.relates_extractPath path hparameters complaint).ok_of_ok rfl hturn
  | ownParameter admits declared complaint =>
    obtain ⟨earlier, later, hparameters, herase, rfl⟩ := exists_eraseIdx declared
    refine analyze_of_omits h .same admits fun hrequests => ?_
    rw [herase]
    exact Extraction.omits_parameter hrequests hparameters complaint
  | requestBody admits complaint =>
    exact analyze_of_omits h (fun _ => rfl) admits
      fun hrequests => Extraction.omits_body hrequests (fun _ => rfl) complaint
  | @response template method operation key response _ admits declared complaint =>
    obtain ⟨earlier, later, hsplit⟩ := List.append_of_mem declared
    refine analyze_of_omits h (fun _ => rfl) admits fun hrequests =>
      Extraction.omits_response hrequests (fun _ => rfl) hsplit ?_ complaint
    unfold Operation.responseEntries at hsplit
    cases hresponses : operation.responses with
    | none =>
      rw [hresponses] at hsplit
      exact absurd hsplit.symm (by simp)
    | some responses =>
      rw [hresponses] at hsplit
      exact SortedMap.entries_erase hsplit

/-- A path with two parameters that have no names and one that has a name, and with a response whose
key cannot be read. -/
def namelessUsers : Document :=
  .ofPaths
    [("/users/{id}", {
      parameters := [
        .inline { name := "", location := .query },
        .inline { name := " ", location := .query },
        .inline {
          name := "id", location := .path, required := true
          schema := some (.inline { types := .ofList [.string] }) }]
      get := some { responses := some (.ofList [("ok", .inline {})]) } })] []

/-- The analysis of that path without the first of its nameless parameters: the second one is
reported under the number of the first one then. -/
theorem analyze_without_nameless :
    ∃ analysis, analyze namelessUsers {} = .ok analysis ∧ analysis.models.size = 1 ∧
      analysis.diagnostics = [.unnamedParameter "/users/{id}" 0,
        .unnamedParameter "/users/{id}" 1, .invalidStatusKey "/users/{id}" .get "ok"] ∧
      ∃ analysis', analyze (namelessUsers.without (.sharedParameter "/users/{id}" 0)) {} =
          .ok analysis' ∧
        analysis'.models = analysis.models ∧ analysis'.paths = analysis.paths ∧
        analysis'.bindings = analysis.bindings ∧
        ∃ before after after', analysis.diagnostics =
            before ++ .unnamedParameter "/users/{id}" 0 :: after ∧
          analysis'.diagnostics = before ++ after' ∧
          List.Forall₂ (PathEntry.sharedParameter "/users/{id}" 0).Renumbers after after' := by
  have hcheck : ((analyze namelessUsers {}).toOption.any fun analysis =>
      analysis.models.size = 1 && analysis.diagnostics =
        [.unnamedParameter "/users/{id}" 0, .unnamedParameter "/users/{id}" 1,
          .invalidStatusKey "/users/{id}" .get "ok"]) = true := by decide +kernel
  obtain ⟨analysis, h, hcheck⟩ := exists_of_any_toOption hcheck
  obtain ⟨hsize, hdiagnostics⟩ := Bool.and_eq_true_iff.1 hcheck
  exact ⟨analysis, h, by simpa using hsize, by simpa using hdiagnostics,
    analyze_without h (.sharedParameter List.mem_cons_self rfl (by decide +kernel))⟩

end Analysis

end ApiCatalog
