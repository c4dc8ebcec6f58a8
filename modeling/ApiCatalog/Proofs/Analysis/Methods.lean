import ApiCatalog.Proofs.Analysis.Bindings
import ApiCatalog.Proofs.Extraction.Concerns
import ApiCatalog.Proofs.Extraction.Recording

set_option autoImplicit false

/-!
# Methods that are declared again

An operation is reported as a duplicate if a path before has its method for the same segments. Since
the operations of a path offer its last method twice, that one is reported as a duplicate of itself,
whether another path has it or not.

## Main results

* `Document.count_duplicateMethod`: how many complaints there are about a method of a path.
* `ApiCatalog.duplicateMethods_of_analyze`: the reports of duplicates.
* `ApiCatalog.duplicateMethods_soleTrace`: a report without a duplicate.
-/

namespace ApiCatalog

/-- How often the operations of a path offer a method. -/
theorem PathItem.countP_operations (item : PathItem) (method : HttpMethod) :
    item.operations.countP (fun entry => entry.1 = method) =
      if (item.operation? method).isSome then if method = .trace then 2 else 1 else 0 := by
  have hoffered : ∀ methods : List HttpMethod,
      (methods.filterMap fun offered =>
          (item.operation? offered).map fun operation => (offered, operation)).countP
        (fun entry => entry.1 = method) =
      if (item.operation? method).isSome then methods.count method else 0 := by
    intro methods
    induction methods with
    | nil => simp
    | cons first rest ih =>
      rw [List.filterMap_cons, List.count_cons]
      by_cases hfirst : first = method
      · subst hfirst
        cases hoperation : item.operation? first <;> simp [hoperation] at ih ⊢ <;> exact ih
      · cases item.operation? first <;> simp [hfirst, ih]
  rw [PathItem.operations, hoffered]
  cases method <;> rfl

namespace Document

variable {document : Document} {template : String} {item : PathItem} {method : HttpMethod}
  {diagnostic : Diagnostic} {earlier later : List (String × PathItem)}

/-! ## Complaints about duplicates -/

/-- Nothing that is complained of about the parts of an operation is a duplicate. -/
theorem duplicateMethod_notMem_operationComplaints {other : String} {method' : HttpMethod}
    {operation : Operation} :
    .duplicateMethod template method ∉
      document.operationComplaints other item method' operation := by
  intro h
  rcases List.mem_append.1 h with h | h
  · exact concernsParameter_of_mem h
  · exact concerns_of_mem h

/-- **How often operations are complained of as duplicates** for a method: each time that they offer
it, except for the first if it is not known before.

**Proof sketch.** Induction on the operations. -/
theorem count_duplicateMethod_operationsComplaints (known : HttpMethod → Bool)
    (operations : List (HttpMethod × Operation)) :
    (document.operationsComplaints template item known operations).count
        (.duplicateMethod template method) =
      operations.countP (fun entry => entry.1 = method) - if known method then 0 else 1 := by
  induction operations generalizing known with
  | nil => simp [operationsComplaints]
  | cons entry rest ih =>
    obtain ⟨other, operation⟩ := entry
    have hnone : (document.operationComplaints template item other operation).count
        (.duplicateMethod template method) = 0 :=
      List.count_eq_zero.2 duplicateMethod_notMem_operationComplaints
    rw [operationsComplaints, List.count_append, ih, List.countP_cons]
    by_cases hsame : other = method
    · subst hsame
      cases known other <;> simp [hnone, Nat.add_comm]
    · cases known other <;> simp [hnone, hsame, Ne.symm hsame]

/-- A duplicate is complained of with the path that it stands in. -/
theorem eq_of_duplicateMethod_mem_pathComplaints {other : String}
    (h : .duplicateMethod template method ∈ document.pathComplaints earlier other item) :
    other = template := by
  rcases List.mem_append.1 h with h | h
  · exact (concernsParameter_of_mem h).elim
  split at h
  · cases List.mem_singleton.1 h
  revert h
  generalize taken earlier other = known
  generalize item.operations = operations
  intro h
  induction operations generalizing known with
  | nil => cases h
  | cons entry rest ih =>
    rcases List.mem_append.1 h with h | h
    · split at h
      · cases List.mem_singleton.1 h
        rfl
      · exact absurd h duplicateMethod_notMem_operationComplaints
    · exact ih _ h

/-- **How many complaints there are about a method of a path**: one if an earlier path has the
method for the same segments, and one if the method is offered twice. -/
theorem count_duplicateMethod
    (hsplit : document.pathEntries = earlier ++ (template, item) :: later) (method : HttpMethod) :
    document.complaints.count (.duplicateMethod template method) =
      if Acceptable template ∧ (item.operation? method).isSome then
        (if taken earlier template method then 1 else 0) + if method = .trace then 1 else 0
      else 0 := by
  have hothers : ∀ earlier other otherItem, other ≠ template →
      (document.pathComplaints earlier other otherItem).filter
        (· == .duplicateMethod template method) = [] :=
    fun earlier other otherItem hother => List.filter_eq_nil_iff.2 fun diagnostic hmem hof =>
      hother (eq_of_duplicateMethod_mem_pathComplaints (eq_of_beq hof ▸ hmem))
  have hnone : (document.parameterComplaints template 0 item.parameters).count
      (.duplicateMethod template method) = 0 :=
    List.count_eq_zero.2 fun hmem => concernsParameter_of_mem hmem
  rw [List.count, List.countP_eq_length_filter, filter_complaints hsplit hothers,
    ← List.countP_eq_length_filter, ← List.count, pathComplaints, List.count_append, hnone,
    Nat.zero_add]
  by_cases hacceptable : Acceptable template
  · rw [acceptable_iff.1 hacceptable]
    show (document.operationsComplaints template item _ item.operations).count _ = _
    rw [count_duplicateMethod_operationsComplaints, PathItem.countP_operations]
    by_cases hdeclared : (item.operation? method).isSome = true
    · have hboth : Acceptable template ∧ (item.operation? method).isSome = true :=
        ⟨hacceptable, hdeclared⟩
      rw [if_pos hdeclared, if_pos hboth]
      by_cases hlast : method = .trace <;> cases taken earlier template method <;> simp [hlast]
    · have hnot : ¬ (Acceptable template ∧ (item.operation? method).isSome = true) :=
        fun h => hdeclared h.2
      rw [if_neg hdeclared, if_neg hnot, Nat.zero_sub]
  · rw [if_neg fun h => hacceptable h.1]
    split
    · exact List.count_eq_zero.2 fun hmem => by cases List.mem_singleton.1 hmem
    · next hnone => exact absurd (acceptable_iff.2 hnone) hacceptable

/-- A complaint about paths is about one of them. -/
theorem exists_path_of_mem_complaintsAfter {paths : List (String × PathItem)}
    (h : diagnostic ∈ document.complaintsAfter earlier paths) :
    ∃ entry ∈ paths, ∃ before,
      diagnostic ∈ document.pathComplaints before entry.1 entry.2 := by
  induction paths generalizing earlier with
  | nil => cases h
  | cons entry rest ih =>
    rcases List.mem_append.1 h with h | h
    · exact ⟨entry, List.mem_cons_self, earlier, h⟩
    · obtain ⟨other, hother, hmem⟩ := ih h
      exact ⟨other, List.mem_cons_of_mem _ hother, hmem⟩

end Document

/-! ## Reports of duplicates -/

/-- **The reports of duplicates.** A method of an acceptable template is reported as often as it
deserves: once if an earlier template with the same segments has the method, and once more if it is
the method that operations are offered for twice. If no two templates have the same segments, then
nothing else than this method is reported.

**Proof sketch.** The reports are the complaints that the document gives rise to
(`filter_diagnostics_of_extract`), which `Document.count_duplicateMethod` counts. -/
theorem duplicateMethods_of_analyze {document : Document} {options : Options} {analysis : Analysis}
    (h : analyze document options = .ok analysis) :
    (∀ earlier template item later, document.pathEntries = earlier ++ (template, item) :: later →
      ∀ method, analysis.diagnostics.count (.duplicateMethod template method) =
        if Acceptable template ∧ (item.operation? method).isSome then
          (if taken earlier template method then 1 else 0) + if method = .trace then 1 else 0
        else 0) ∧
    ((document.pathEntries.map fun entry => templateSegments entry.1).Nodup →
      ∀ template method, .duplicateMethod template method ∈ analysis.diagnostics →
        method = .trace) := by
  obtain ⟨state, hextract, hend, rfl⟩ := analyze_ok h
  have hcount : ∀ template method,
      state.resolver.diagnostics.count (.duplicateMethod template method) =
        document.complaints.count (.duplicateMethod template method) := by
    intro template method
    have hblames : ∀ diagnostic : Diagnostic,
        (diagnostic == .duplicateMethod template method) = true →
          document.blamesSchema diagnostic = false := fun _ hof => eq_of_beq hof ▸ rfl
    rw [List.count, List.countP_eq_length_filter, List.countP_eq_length_filter,
      filter_diagnostics_of_extract hextract hend hblames]
  refine ⟨fun earlier template item later hsplit method => ?_,
    fun hnodup template method hmem => ?_⟩
  · exact (hcount template method).trans (Document.count_duplicateMethod hsplit method)
  · have hpositive := List.count_pos_iff.2 hmem
    rw [Analysis.ofState, hcount] at hpositive
    obtain ⟨⟨other, item⟩, hentry, before, hpath⟩ :=
      Document.exists_path_of_mem_complaintsAfter (List.count_pos_iff.1 hpositive)
    obtain rfl := Document.eq_of_duplicateMethod_mem_pathComplaints hpath
    obtain ⟨earlier, later, hsplit⟩ := List.append_of_mem hentry
    rw [Document.count_duplicateMethod hsplit] at hpositive
    have hfree : taken earlier other method = false := by
      rw [hsplit, List.map_append, List.map_cons, List.nodup_middle, List.nodup_cons] at hnodup
      refine List.any_eq_false.2 fun entry hentry hsame => hnodup.1 ?_
      have hsegments : templateSegments entry.1 = templateSegments other := by
        simp only [Bool.and_eq_true, decide_eq_true_eq] at hsame
        exact hsame.1.2
      exact List.mem_append_left _ (List.mem_map.2 ⟨entry, hentry, hsegments⟩)
    by_contra hother
    simp [hfree, hother] at hpositive

/-- The second spelling of a path has a method of the first one again, and the pet store has no two
templates with the same segments. -/
theorem duplicateMethods_spellings :
    (∃ analysis, analyze spellings {} = .ok analysis ∧
      analysis.diagnostics.count (.duplicateMethod "/a" .get) = 0 ∧
      analysis.diagnostics.count (.duplicateMethod "/a/" .get) = 1 ∧
      analysis.diagnostics.count (.duplicateMethod "/a/" .post) = 0) ∧
    ∃ analysis, analyze petStore {} = .ok analysis ∧
      .duplicateMethod "/pets/{id}" .put ∉ analysis.diagnostics := by
  have hcheck : ((analyze spellings {}).toOption.any fun _ => true) = true := by decide +kernel
  have hcheck' : ((analyze petStore {}).toOption.any fun _ => true) = true := by decide +kernel
  obtain ⟨analysis, h, -⟩ := exists_of_any_toOption hcheck
  obtain ⟨analysis', h', -⟩ := exists_of_any_toOption hcheck'
  have hfirst := (duplicateMethods_of_analyze h).1 [] _ _ _ rfl
  have hsecond := (duplicateMethods_of_analyze h).1 [_] _ _ [_] rfl
  refine ⟨⟨analysis, h, (hfirst .get).trans (by decide), (hsecond .get).trans (by decide),
    (hsecond .post).trans (by decide)⟩, analysis', h', fun hmem => ?_⟩
  cases (duplicateMethods_of_analyze h').2 (by decide) _ _ hmem

/-- A path that has nothing but the method that is offered twice. -/
def soleTrace : Document :=
  .ofPaths [("/a", { trace := some {} })] []

/-- **A method may be reported as a duplicate though no other path has it.** -/
theorem duplicateMethods_soleTrace :
    (soleTrace.pathEntries.map fun entry => templateSegments entry.1).Nodup ∧
      ∃ analysis, analyze soleTrace {} = .ok analysis ∧
        analysis.diagnostics = [.duplicateMethod "/a" .trace] := by
  have hcheck : ((analyze soleTrace {}).toOption.any fun analysis =>
      analysis.diagnostics = [.duplicateMethod "/a" .trace]) = true := by decide +kernel
  obtain ⟨analysis, h, hdiagnostics⟩ := exists_of_any_toOption hcheck
  exact ⟨by decide, analysis, h, by simpa using hdiagnostics⟩

end ApiCatalog
