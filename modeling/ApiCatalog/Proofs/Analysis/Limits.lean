import ApiCatalog.Proofs.Analysis.Bindings
import ApiCatalog.Proofs.Analysis.Cancellation
import ApiCatalog.Proofs.Extraction.Completion
import ApiCatalog.Proofs.Extraction.Limits

set_option autoImplicit false

/-!
# Analyses with a limit on the models

An analysis that is to be cancelled when the number of models reaches a limit, compared with the
complete one. It is cancelled just if the complete analysis registers that many models; otherwise it
has the same result.

## Main results

* `ApiCatalog.extract_of_cancelAt`: the extraction comes to an end, and either does the same as the
  complete one or is cancelled.
* `ApiCatalog.below_of_extract`: it has fewer models than the limit, or is cancelled.
* `ApiCatalog.extract_unlimited`: if it is not cancelled, it is the complete one.
* `ApiCatalog.analyze_of_cancelAt`: what becomes of the analysis.
* `ApiCatalog.aborted_bodyAfterParameter`: a request body may end an analysis that was cancelled.
-/

namespace ApiCatalog

variable {document : Document} {options : Options} {limit : Nat}

/-! ## How an extraction with a limit ends -/

/-- Passes that come to an end make up an extraction with a result. -/
theorem extract_of_passes {state : ExtractionState}
    (h : passes document options options.initialState = .ok () state) :
    extract document options = .ok state := by
  unfold extract
  rw [h]

/-- The passes answer where the complete ones do. -/
theorem passes_answers (limit : Nat) {state complete : ExtractionState}
    (hproper : state.index.Proper) (hstate : state.resolver.cancelled = false)
    (h : passes document { options with cancelAt := none } state = .ok () complete) :
    ∃ cut, passes document { options with cancelAt := some limit } state = .ok () cut := by
  obtain ⟨_, s, hpaths, hrest⟩ := Extraction.bind_eq_ok_iff.1 h
  obtain ⟨s', hcut⟩ := Extraction.extractPaths_answers limit hproper hstate hpaths
  have hcomponents : ∀ _ : Unit, Extraction.AnswersAlways document limit
      (if options.includeComponents then
        Extraction.extractComponents ⟨document, none⟩ document.schemas.entries else pure ())
      (if options.includeComponents then
        Extraction.extractComponents ⟨document, some limit⟩ document.schemas.entries
      else pure ()) := by
    intro _
    split
    · exact Extraction.answersAlways_extractComponents
    · exact (Extraction.building_answersAlways document limit).pure ()
  have hcutShort := (Extraction.congruence_cutShort document limit).extractPaths
  obtain ⟨_, cut, hlast⟩ := hcutShort.bind_answers hcomponents hstate hpaths hrest hcut
  exact ⟨cut, hlast⟩

/-- **The extraction comes to an end** if the complete one does: it does the same, or it is
cancelled when it has registered the same models up to the limit. -/
theorem extract_of_cancelAt (limit : Nat) {complete : ExtractionState}
    (h : extract document { options with cancelAt := none } = .ok complete)
    (hend : complete.resolver.cancelled = false) :
    ∃ cut, extract document { options with cancelAt := some limit } = .ok cut ∧
      (cut = complete ∨ Extraction.Stopped document limit complete cut) := by
  have hpasses := passes_of_extract h
  have hcutShort := cutShort_passes document options limit
  have hbegin : options.cancelled = false := (hcutShort.grows _ _ _ hpasses).2.symm.trans hend
  obtain ⟨cut, hcut⟩ := passes_answers limit PathIndex.proper_empty hbegin hpasses
  refine ⟨cut, extract_of_passes hcut, ?_⟩
  rcases hcutShort.live _ _ _ hbegin hpasses with hsame | hstopped
  · rw [hcut] at hsame
    cases hsame
    exact .inl rfl
  · rw [Extraction.stateAfter_of_ok hcut] at hstopped
    exact .inr hstopped

/-- **An extraction has fewer models than the limit**, or is cancelled. -/
theorem below_of_extract {state : ExtractionState} (hlimit : 1 ≤ limit)
    (h : extract document { options with cancelAt := some limit } = .ok state) :
    state.resolver.Below limit :=
  ((sustained_below document limit _).extract (fun _ => hlimit) h).1

/-- **An extraction that is not cancelled is one without a limit.** -/
theorem extract_unlimited {state : ExtractionState}
    (h : extract document { options with cancelAt := some limit } = .ok state)
    (hend : state.resolver.cancelled = false) :
    extract document { options with cancelAt := none } = .ok state := by
  have hpasses : Extraction.Unlimited (passes document { options with cancelAt := none })
      (passes document { options with cancelAt := some limit }) :=
    (Extraction.congruence_unlimited document (some limit)).passes options
      (Extraction.unlimited_extractComponents _)
  exact extract_of_passes (hpasses.same (passes_of_extract h) hend)

/-! ## What becomes of the analysis -/

/-- An extraction that was not cancelled is accounted for. -/
theorem analyze_eq_ok {state : ExtractionState} (h : extract document options = .ok state)
    (hend : state.resolver.cancelled = false) :
    analyze document options = .ok (.ofState state) := by
  rw [analyze, h]
  exact if_neg (by simp [hend])

/-- **An analysis with a limit has a result** just if the complete one has that result, with fewer
models.

**Proof sketch.** An extraction that was not cancelled is below the limit, and one without a limit.
Conversely, if an extraction was cancelled, the complete one has reached the limit. -/
theorem analyze_eq_ok_iff (hlimit : 1 ≤ limit) {analysis : Analysis} :
    analyze document { options with cancelAt := some limit } = .ok analysis ↔
      analyze document { options with cancelAt := none } = .ok analysis ∧
        analysis.models.size < limit := by
  constructor
  · intro h
    obtain ⟨cut, hcut, hend, rfl⟩ := analyze_ok h
    exact ⟨analyze_eq_ok (extract_unlimited hcut hend) hend, below_of_extract hlimit hcut hend⟩
  · rintro ⟨h, hbelow⟩
    obtain ⟨complete, hcomplete, hend, rfl⟩ := analyze_ok h
    obtain ⟨cut, hcut, rfl | ⟨-, hbreaks⟩⟩ := extract_of_cancelAt limit hcomplete hend
    · exact analyze_eq_ok hcut hend
    · exact absurd hbreaks.le_size (Nat.not_le.2 hbelow)

/-- An analysis is cancelled at a number of models that the complete one reaches, and the models are
the same up to this number. -/
theorem cancelled_of_le_size (hlimit : 1 ≤ limit) {analysis : Analysis}
    (h : analyze document { options with cancelAt := none } = .ok analysis)
    (hreached : limit ≤ analysis.models.size) :
    analyze document { options with cancelAt := some limit } = .error .cancelled ∧ ∃ state,
      extract document { options with cancelAt := some limit } = .ok state ∧
      state.resolver.repository.models.take limit = analysis.models.models.take limit := by
  obtain ⟨complete, hcomplete, hend, rfl⟩ := analyze_ok h
  obtain ⟨cut, hcut, rfl | ⟨hcancelled, hbreaks⟩⟩ := extract_of_cancelAt limit hcomplete hend
  · exact absurd hreached (Nat.not_le.2 (below_of_extract hlimit hcut hend))
  · refine ⟨?_, cut, hcut, hbreaks.take_eq⟩
    rw [analyze, hcut]
    exact if_pos hcancelled

/-- **What becomes of an analysis with a limit on the models.** Whatever the document, it has a
result just if the complete analysis has, with fewer models, and then it has the same one. If the
complete analysis has a result, the one with a limit is cancelled just if the number of models
reaches the limit, and the models are the same up to the limit. -/
theorem analyze_of_cancelAt (document : Document) (options : Options) {limit : Nat}
    (hlimit : 1 ≤ limit) :
    (∀ analysis, analyze document { options with cancelAt := some limit } = .ok analysis ↔
      analyze document { options with cancelAt := none } = .ok analysis ∧
        analysis.models.size < limit) ∧
    ∀ analysis, analyze document { options with cancelAt := none } = .ok analysis →
      (analyze document { options with cancelAt := some limit } = .error .cancelled ↔
        limit ≤ analysis.models.size) ∧
      (limit ≤ analysis.models.size → ∃ state,
        extract document { options with cancelAt := some limit } = .ok state ∧
        state.resolver.repository.models.take limit = analysis.models.models.take limit) := by
  refine ⟨fun analysis => analyze_eq_ok_iff hlimit, fun analysis h => ⟨⟨fun hcancelled => ?_,
    fun hreached => (cancelled_of_le_size hlimit h hreached).1⟩,
    fun hreached => (cancelled_of_le_size hlimit h hreached).2⟩⟩
  by_contra hbelow
  cases hcancelled.symm.trans ((analyze_eq_ok_iff hlimit).2 ⟨h, Nat.not_le.1 hbelow⟩)

/-- With four models, the last registration is the last one that cancels. -/
theorem analyze_of_cancelAt_soleMember :
    ∃ analysis, analyze soleMember {} = .ok analysis ∧ analysis.models.size = 4 ∧
      analyze soleMember { cancelAt := some 4 } = .error .cancelled ∧
      analyze soleMember { cancelAt := some 5 } = .ok analysis := by
  have hcheck : ((analyze soleMember {}).toOption.any fun analysis =>
      analysis.models.size = 4) = true := by decide +kernel
  obtain ⟨analysis, h, hsize⟩ := exists_of_any_toOption hcheck
  have hsize : analysis.models.size = 4 := of_decide_eq_true hsize
  obtain ⟨-, hcomplete⟩ := analyze_of_cancelAt soleMember {} (show 1 ≤ 4 by decide)
  obtain ⟨hresult, -⟩ := analyze_of_cancelAt soleMember {} (show 1 ≤ 5 by decide)
  refine ⟨analysis, h, hsize, (hcomplete analysis h).1.2 (Nat.le_of_eq hsize.symm), ?_⟩
  exact (hresult analysis).2 ⟨h, by omega⟩

/-- A document with one operation, which has a number as a parameter. -/
def afterParameter (operation : Operation) : Document :=
  .ofPaths
    [("/a", { get := some { operation with
      parameters := [.inline {
        name := "q", location := .query
        schema := some (.inline { types := .ofList [.integer] }) }] } })] []

/-- A parameter, and then a request body with a malformed reference. -/
def bodyAfterParameter : Document :=
  afterParameter { requestBody := some (.reference "#/definitions/Body") }

/-- A parameter, and then a response with a malformed reference. -/
def responseAfterParameter : Document :=
  afterParameter { responses := some (.ofList [("200", .reference "#/definitions/Body")]) }

/-- **A request body may end an analysis that was cancelled**: the first model cancels the analysis,
and the body is looked up still. A response would not be. -/
theorem aborted_bodyAfterParameter :
    (endState bodyAfterParameter {}).resolver.repository.size = 1 ∧
      analyze bodyAfterParameter { cancelAt := some 1 } =
        .error (.aborted (.malformedReference "#/definitions/Body")) ∧
      (endState responseAfterParameter {}).resolver.repository.size = 1 ∧
      analyze responseAfterParameter { cancelAt := some 1 } = .error .cancelled := by
  decide +kernel

end ApiCatalog
