import ApiCatalog.Proofs.Extraction.Cancellation
import ApiCatalog.Proofs.Extraction.Visits

set_option autoImplicit false

/-!
# Extractions that are cut short come to an end

The passes look some things up without asking first whether the extraction was cancelled: the parts
of the operation at hand. Where the complete extraction found them, the one that is cut short is not
ended by them either. So it answers wherever the complete one does.

## Main definitions

* `Extraction.Answers`: a step that is cut short answers where the complete one does.
* `Extraction.AnswersAlways`: it answers after the cancellation as well, whatever it meets.
* `Extraction.afterWalk`: what follows the walk along a template.

## Main results

* `Extraction.building_answersAlways`: building an endpoint answers always, if nothing ends it.
* `Extraction.answers_buildEndpoint`: it answers where the complete extraction builds the endpoint.
* `Extraction.untilCancelled_answers`: entries are taken up to an end if each answers in its turn.
* `Extraction.extractPaths_answers`, `Extraction.answersAlways_extractComponents`: the passes answer
  where the complete ones do.
-/

namespace ApiCatalog

namespace Extraction

variable {α β : Type} {document : Document} {limit : Nat}

/-! ## Steps that answer -/

/-- A step that is cut short answers where the complete one does. -/
structure Answers (document : Document) (limit : Nat) (complete cut : Extraction α) : Prop
    extends CutShort document limit complete cut where
  answers : ∀ {state a state'}, state.resolver.cancelled = false →
    complete state = .ok a state' → ∃ a' s, cut state = .ok a' s

/-- A step that is cut short answers where the complete one does, and after the cancellation in any
case. -/
structure AnswersAlways (document : Document) (limit : Nat) (complete cut : Extraction α) : Prop
    extends Answers document limit complete cut where
  late : ∀ {state}, state.resolver.cancelled = true → ∃ a s, cut state = .ok a s

/-- A step that is cut short gives the answer of the complete one, or was cancelled. -/
theorem CutShort.eq_or_cancelled {complete cut : Extraction α}
    (h : CutShort document limit complete cut) {state state' s : ExtractionState} {a a' : α}
    (hstate : state.resolver.cancelled = false) (hcomplete : complete state = .ok a state')
    (hcut : cut state = .ok a' s) :
    (a' = a ∧ s = state' ∧ s.resolver.cancelled = false) ∨ s.resolver.cancelled = true := by
  rcases h.live state a state' hstate hcomplete with hsame | hstopped
  · rw [hcut] at hsame
    cases hsame
    exact .inl ⟨rfl, rfl, (h.grows _ _ _ hcomplete).2.trans hstate⟩
  · rw [stateAfter_of_ok hcut] at hstopped
    exact .inr hstopped.1

/-- A step that is answered after the cancellation leaves the extraction cancelled. -/
theorem CutShort.cancelled_of_ok {complete cut : Extraction α}
    (h : CutShort document limit complete cut) {state s : ExtractionState} {a : α}
    (hstate : state.resolver.cancelled = true) (hcut : cut state = .ok a s) :
    s.resolver.cancelled = true := by
  rw [← stateAfter_of_ok hcut]
  exact (h.idle state hstate).1

/-- A step that never ends an extraction. -/
theorem AnswersAlways.of_total {step : Extraction α} (h : CutShort document limit step step)
    (htotal : ∀ state, ∃ a s, step state = .ok a s) : AnswersAlways document limit step step where
  toCutShort := h
  answers _ hstep := ⟨_, _, hstep⟩
  late _ := htotal _

/-- A step that has answered in either extraction, and then one that answers always. -/
theorem CutShort.bind_answers {x x' : Extraction α} {f f' : α → Extraction β}
    (hx : CutShort document limit x x') (hf : ∀ a, AnswersAlways document limit (f a) (f' a))
    {state state' s s' : ExtractionState} {a a' : α} {b : β}
    (hstate : state.resolver.cancelled = false) (hfirst : x state = .ok a s)
    (hrest : f a s = .ok b state') (hcut : x' state = .ok a' s') :
    ∃ b' s'', (x' >>= f') state = .ok b' s'' := by
  rw [bind_of_ok hcut]
  rcases hx.eq_or_cancelled hstate hfirst hcut with ⟨rfl, rfl, hactive⟩ | hcancelled
  · exact (hf a').answers hactive hrest
  · exact (hf a').late hcancelled

/-- A step that answers, and then one that answers always. -/
theorem Answers.bind {x x' : Extraction α} {f f' : α → Extraction β}
    (hx : Answers document limit x x') (hf : ∀ a, AnswersAlways document limit (f a) (f' a)) :
    Answers document limit (x >>= f) (x' >>= f') where
  toCutShort := hx.toCutShort.bind fun a => (hf a).toCutShort
  answers := by
    intro state b state' hstate h
    obtain ⟨a, s, hfirst, hrest⟩ := bind_eq_ok_iff.1 h
    obtain ⟨a', s', hcut⟩ := hx.answers hstate hfirst
    exact hx.bind_answers hf hstate hfirst hrest hcut

/-- Steps that answer always, one after the other. -/
theorem AnswersAlways.bind {x x' : Extraction α} {f f' : α → Extraction β}
    (hx : AnswersAlways document limit x x')
    (hf : ∀ a, AnswersAlways document limit (f a) (f' a)) :
    AnswersAlways document limit (x >>= f) (x' >>= f') where
  toAnswers := hx.toAnswers.bind hf
  late := by
    intro state hstate
    obtain ⟨a, s, hcut⟩ := hx.late hstate
    obtain ⟨b, s', hlast⟩ := (hf a).late (hx.cancelled_of_ok hstate hcut)
    exact ⟨b, s', (bind_of_ok hcut).trans hlast⟩

/-- A step that is not taken after the cancellation. -/
theorem AnswersAlways.unlessCancelled {a : α} {x x' : Extraction α}
    (h : Answers document limit x x') :
    AnswersAlways document limit (do if ← isCancelled then return a else x)
      (do if ← isCancelled then return a else x') where
  toCutShort := by
    have hcutShort := congruence_cutShort document limit
    refine hcutShort.bind hcutShort.isCancelled fun cancelled => ?_
    cases cancelled with
    | false => exact h.toCutShort
    | true => exact hcutShort.pure a
  answers := by
    intro state b state' hstate hstep
    have hasked : isCancelled state = .ok false state := by rw [← hstate]; rfl
    rw [bind_of_ok hasked] at hstep
    obtain ⟨b', s, hcut⟩ := h.answers hstate hstep
    exact ⟨b', s, (bind_of_ok hasked).trans hcut⟩
  late := by
    intro state hstate
    have hasked : isCancelled state = .ok true state := by rw [← hstate]; rfl
    exact ⟨a, state, bind_of_ok hasked⟩

/-- The complete step does not answer. -/
theorem Answers.of_aborts {complete cut : Extraction α} (h : CutShort document limit complete cut)
    (haborts : ∀ state a state', complete state ≠ .ok a state') :
    Answers document limit complete cut where
  toCutShort := h
  answers _ hcomplete := absurd hcomplete (haborts _ _ _)

/-! ## Endpoints -/

/-- The resolution of a schema that the document asks for always answers. -/
theorem answersAlways_resolveBound {node : Node} {name : ModelName}
    (hrequest : (name, node) ∈ document.requests) :
    AnswersAlways document limit (resolveBound ⟨document, none⟩ node name)
      (resolveBound ⟨document, some limit⟩ node name) where
  toCutShort := cutShort_resolveBound hrequest
  answers := by
    rintro state ⟨⟩ state' hstate h
    obtain ⟨resolution, resolver, hrun, rfl⟩ := resolveBound_ok h
    obtain ⟨resolution', resolver', hcut, -⟩ :=
      hrun.eq_or_breaksOff hstate (.request hrequest) limit
    exact ⟨(), _, resolveBound_of_runs hcut⟩
  late hstate := ⟨(), _, resolveBound_of_runs (.cancelled hstate)⟩

/-- **Building an endpoint answers always**, if nothing ends it. -/
theorem building_answersAlways (document : Document) (limit : Nat) :
    Building document none (some limit) (fun _ => False) fun _ complete cut =>
      AnswersAlways document limit complete cut where
  pure a := .of_total ((congruence_cutShort document limit).pure a) fun state => ⟨a, state, rfl⟩
  bind := .bind
  isCancelled := .of_total (congruence_cutShort document limit).isCancelled
    fun state => ⟨_, state, rfl⟩
  abort := False.elim
  report _ := .of_total (.record _) fun _ => ⟨(), _, rfl⟩
  bindNode id schema := .of_total (.changeIndex _) fun state => by
    rw [changeIndex_apply]
    cases state.index.bind id schema <;> exact ⟨_, _, rfl⟩
  bound := answersAlways_resolveBound

section Operations

variable {template : String} {method : HttpMethod}

/-- A step that begins with a value that ends the extraction does not answer. -/
theorem ofExcept_bind_ne_ok {result : Except Abort α} {abort : Abort} {f : α → Extraction β}
    (h : result = .error abort) (state : ExtractionState) (b : β) (state' : ExtractionState) :
    (ofExcept result >>= f) state ≠ .ok b state' := by
  subst h
  exact fun hstep => nomatch hstep

/-- A parameter answers where it is looked up by the complete extraction. -/
theorem answers_collectParameter {entry : OrReference Parameter}
    (hrequests : document.parameterRequests template [entry] ⊆ document.requests) (index : Nat)
    (collected : ParameterMap) :
    Answers document limit (collectParameter ⟨document, none⟩ template index entry collected)
      (collectParameter ⟨document, some limit⟩ template index entry collected) := by
  cases hlookup : document.parameter entry with
  | error abort =>
    exact .of_aborts ((congruence_cutShort document limit).collectParameter hrequests
      (fun _ _ => trivial) index collected) (ofExcept_bind_ne_ok hlookup)
  | ok result =>
    refine ((building_answersAlways document limit).collectParameter hrequests
      (fun abort haborts => ?_) index collected).toAnswers
    rw [hlookup] at haborts
    cases haborts

/-- Parameters always answer, since none is taken up after the cancellation. -/
theorem answersAlways_collectParameters {entries : List (OrReference Parameter)}
    (hrequests : document.parameterRequests template entries ⊆ document.requests) (index : Nat)
    (collected : ParameterMap) :
    AnswersAlways document limit
      (collectParameters ⟨document, none⟩ template index entries collected)
      (collectParameters ⟨document, some limit⟩ template index entries collected) := by
  induction entries generalizing index collected with
  | nil => exact (building_answersAlways document limit).pure _
  | cons entry rest ih =>
    rw [Document.parameterRequests_cons, List.append_subset] at hrequests
    exact .unlessCancelled ((answers_collectParameter hrequests.1 index collected).bind
      fun _ => ih hrequests.2 _ _)

/-- A response answers where it is looked up by the complete extraction. -/
theorem answers_collectResponse {key : String} {response : OrReference Response}
    (hrequests : document.responseRequests template method [(key, response)] ⊆ document.requests)
    (collected : ResponseMap) :
    Answers document limit
      (collectResponse ⟨document, none⟩ template method key response collected)
      (collectResponse ⟨document, some limit⟩ template method key response collected) := by
  have hbuilding := building_answersAlways document limit
  cases hkey : StatusKey.ofText? key with
  | none =>
    unfold collectResponse
    rw [hkey]
    exact (hbuilding.bind (hbuilding.report rfl) fun _ => hbuilding.pure _).toAnswers
  | some status =>
    cases hlookup : document.response response with
    | error abort =>
      refine .of_aborts ((congruence_cutShort document limit).collectResponse hrequests
        (fun _ _ => trivial) collected) ?_
      unfold collectResponse
      rw [hkey]
      exact ofExcept_bind_ne_ok hlookup
    | ok result =>
      refine (hbuilding.collectResponse hrequests (fun abort haborts => ?_) collected).toAnswers
      rw [hlookup] at haborts
      cases haborts

/-- Responses always answer, since none is taken up after the cancellation. -/
theorem answersAlways_collectResponses {responses : List (String × OrReference Response)}
    (hrequests : document.responseRequests template method responses ⊆ document.requests)
    (collected : ResponseMap) :
    AnswersAlways document limit
      (collectResponses ⟨document, none⟩ template method responses collected)
      (collectResponses ⟨document, some limit⟩ template method responses collected) := by
  induction responses generalizing collected with
  | nil => exact (building_answersAlways document limit).pure _
  | cons entry rest ih =>
    obtain ⟨key, response⟩ := entry
    rw [Document.responseRequests_cons, List.append_subset] at hrequests
    exact .unlessCancelled ((answers_collectResponse hrequests.1 collected).bind
      fun _ => ih hrequests.2 _)

/-- **Building an endpoint answers where the complete extraction builds it.**

**Proof sketch.** Parameters and responses are not taken up after the cancellation. A request body
is; but the complete extraction has looked it up with success. -/
theorem answers_buildEndpoint (limit : Nat) {operation : Operation}
    (hrequests : document.operationRequests template method operation ⊆ document.requests)
    (shared : ParameterMap) (walked : WalkedPath) :
    Answers document limit
      (buildEndpoint ⟨document, none⟩ template method operation shared walked)
      (buildEndpoint ⟨document, some limit⟩ template method operation shared walked) := by
  have hbuilding := building_answersAlways document limit
  have hcutShort := (congruence_cutShort document limit).buildEndpoint hrequests
    (fun _ _ => trivial) shared walked
  by_cases hbody : ∃ abort, document.BodyAborts operation abort
  · obtain ⟨abort, body, hbody, hlookup⟩ := hbody
    refine .of_aborts hcutShort fun state endpoint state' hbuild => ?_
    obtain ⟨own, s₁, -, hrest⟩ := bind_eq_ok_iff.1 hbuild
    obtain ⟨_, s₂, -, hrest⟩ := bind_eq_ok_iff.1 hrest
    obtain ⟨bodies, s₃, hbodies, -⟩ := bind_eq_ok_iff.1 hrest
    rw [hbody] at hbodies
    exact ofExcept_bind_ne_ok hlookup _ _ _ hbodies
  · rw [Document.operationRequests, List.append_subset, List.append_subset] at hrequests
    obtain ⟨hparameters, hbodies, hresponses⟩ := hrequests
    refine ((answersAlways_collectParameters hparameters _ _).bind fun own => ?_).toAnswers
    refine hbuilding.bind (hbuilding.bindParameters template method walked _) fun _ => ?_
    refine hbuilding.bind (hbuilding.collectRequestBodies hbodies
      fun abort haborts => hbody ⟨abort, haborts⟩) fun bodies => ?_
    exact (answersAlways_collectResponses hresponses _).bind fun _ => hbuilding.pure _

end Operations

/-! ## Turns -/

section Turns

variable {ε : Type} {entries : List ε} {state final : ExtractionState}

/-- **Entries are taken up to an end** if each of them has an answer in its turn, and the complete
extraction keeps what the turns rely on. -/
theorem untilCancelled_answers (inv : ExtractionState → Prop) {complete cut : ε → Extraction α}
    (hcutShort : ∀ entry ∈ entries, CutShort document limit (complete entry) (cut entry))
    (hturn : ∀ entry ∈ entries, ∀ {state a state'}, inv state → state.resolver.cancelled = false →
      complete entry state = .ok a state' → inv state' ∧ ∃ a' s, cut entry state = .ok a' s)
    (hinv : inv state) (hstate : state.resolver.cancelled = false)
    (h : untilCancelled complete entries state = .ok () final) :
    inv final ∧ ∃ s, untilCancelled cut entries state = .ok () s := by
  induction entries generalizing state with
  | nil =>
    cases h
    exact ⟨hinv, _, rfl⟩
  | cons entry rest ih =>
    obtain ⟨hfirst, hothers⟩ := List.forall_mem_cons.1 hcutShort
    obtain ⟨hfirstTurn, hotherTurns⟩ := List.forall_mem_cons.1 hturn
    rcases untilCancelled_cons_iff.1 h with ⟨hcancelled, -⟩ | ⟨-, a, after, hstep, hrest⟩
    · cases hstate.symm.trans hcancelled
    obtain ⟨hinv', a', s, hcut⟩ := hfirstTurn hinv hstate hstep
    have hactive : after.resolver.cancelled = false := (hfirst.grows _ _ _ hstep).2.trans hstate
    obtain ⟨hinvFinal, s', hcutRest⟩ := ih hothers hotherTurns hinv' hactive hrest
    refine ⟨hinvFinal, ?_⟩
    rcases hfirst.eq_or_cancelled hstate hstep hcut with ⟨rfl, rfl, -⟩ | hcancelled
    · exact ⟨s', untilCancelled_cons_iff.2 (.inr ⟨hstate, a', s, hcut, hcutRest⟩)⟩
    · exact ⟨s, untilCancelled_cons_iff.2 (.inr ⟨hstate, a', s, hcut,
        untilCancelled_of_cancelled rest hcancelled⟩)⟩

end Turns

/-! ## The passes -/

section Paths

variable {cancelAt : Option Nat} {template : String} {item : PathItem} {method : HttpMethod}
  {operation : Operation} {shared : ParameterMap} {walked : WalkedPath}
  {state state' : ExtractionState}

/-- An endpoint that was built is put at its node, if that has none for the method. -/
theorem extractOperation_of_built {endpoint : Endpoint} {s : ExtractionState}
    (hrequests : document.operationRequests template method operation ⊆ document.requests)
    (hterminal : walked.terminal < state.index.parts.length)
    (hfree : state.index.endpointAt walked.terminal method = none)
    (hbuild : buildEndpoint ⟨document, cancelAt⟩ template method operation shared walked state =
      .ok endpoint s) :
    ∃ index, extractOperation ⟨document, cancelAt⟩ template shared walked method operation state =
      .ok () { s with index } ∧ state.index.SameOutline index := by
  have hbuilds : state.Builds s := ((building_builds (.any _) state).buildEndpoint hrequests
    (fun _ _ => trivial) shared walked state (.refl state)).answer hbuild
  obtain rfl := buildEndpoint_method hbuild
  obtain ⟨index, hinsert, houtline, -⟩ := PathIndex.insertEndpoint_of_free
    (hbuilds.outline.length_eq.symm ▸ hterminal) ((hbuilds.endpointAt _ _).trans hfree)
  have hasked : hasEndpoint walked.terminal endpoint.method state = .ok false state := by
    show EStateM.Result.ok (state.index.endpointAt _ _).isSome state = _
    rw [hfree]
    rfl
  have hchange : changeIndex (fun index =>
      (index.insertEndpoint walked.terminal endpoint).map (((), ·))) s =
        .ok (.ok ()) { s with index } := by
    rw [changeIndex_apply, hinsert]
    rfl
  refine ⟨index, ?_, houtline.trans hbuilds.outline⟩
  exact (bind_of_ok hasked).trans ((bind_of_ok hbuild).trans (bind_of_ok hchange))

/-- An operation answers where the complete extraction takes it up. -/
theorem extractOperation_answers
    (hrequests : document.operationRequests template method operation ⊆ document.requests)
    (hterminal : walked.terminal < state.index.parts.length)
    (hstate : state.resolver.cancelled = false)
    (h : extractOperation ⟨document, none⟩ template shared walked method operation state =
      .ok () state') :
    state.index.SameOutline state'.index ∧ ∃ s,
      extractOperation ⟨document, some limit⟩ template shared walked method operation state =
        .ok () s := by
  have hasked : hasEndpoint walked.terminal method state =
      .ok (state.index.endpointAt walked.terminal method).isSome state := rfl
  cases hfree : state.index.endpointAt walked.terminal method with
  | some known =>
    rw [hfree] at hasked
    have hreport : ∀ cancelAt,
        extractOperation ⟨document, cancelAt⟩ template shared walked method operation state =
          record (.duplicateMethod template method) state := fun _ => bind_of_ok hasked
    rw [hreport] at h
    cases h
    exact ⟨rfl, _, hreport _⟩
  | none =>
    rw [hfree] at hasked
    obtain ⟨endpoint, s, hbuild, -⟩ := bind_eq_ok_iff.1 ((bind_of_ok hasked).symm.trans h)
    obtain ⟨index, hcomplete, houtline⟩ :=
      extractOperation_of_built hrequests hterminal hfree hbuild
    obtain ⟨endpoint', s', hbuild'⟩ :=
      (answers_buildEndpoint limit hrequests shared walked).answers hstate hbuild
    obtain ⟨index', hcut, -⟩ := extractOperation_of_built hrequests hterminal hfree hbuild'
    cases hcomplete.symm.trans h
    exact ⟨houtline, _, hcut⟩

/-- Operations answer where the complete extraction takes them up. -/
theorem extractOperations_answers (hpath : (template, item) ∈ document.pathEntries)
    (hproper : state.index.Proper) (hterminal : walked.terminal < state.index.parts.length)
    (hstate : state.resolver.cancelled = false)
    (h : extractOperations ⟨document, none⟩ template shared walked item.operations state =
      .ok () state') :
    state'.index.Proper ∧ ∃ s,
      extractOperations ⟨document, some limit⟩ template shared walked item.operations state =
        .ok () s := by
  have hrequests : ∀ entry ∈ item.operations,
      document.operationRequests template entry.1 entry.2 ⊆ document.requests :=
    fun _ hentry => List.Subset.trans (Document.operationRequests_subset hentry)
      (Document.pathRequests_subset hpath)
  rw [extractOperations_eq] at h ⊢
  have hkept := untilCancelled_answers
    (fun s => s.index.Proper ∧ walked.terminal < s.index.parts.length)
    (fun entry hentry => (congruence_cutShort document limit).extractOperation
      (hrequests entry hentry) shared walked) ?_ ⟨hproper, hterminal⟩ hstate h
  · exact ⟨hkept.1.1, hkept.2⟩
  rintro entry hentry before ⟨⟩ after ⟨hproper, hterminal⟩ hactive hstep
  obtain ⟨houtline, s, hcut⟩ :=
    extractOperation_answers (hrequests entry hentry) hterminal hactive hstep
  exact ⟨⟨houtline.proper hproper, houtline.length_eq.symm ▸ hterminal⟩, (), s, hcut⟩

/-- A template is laid into a proper index, or reported, without an end of the extraction. -/
theorem walkTemplate_eq_ok (template : String) (hproper : state.index.Proper) :
    ∃ answer s, walkTemplate template state = .ok answer s ∧
      Walked template (templateSegments template) ⟨PathIndex.root, ∅⟩ state answer s := by
  have hyields : Yields (walkTemplate template) state
      (Walked template (templateSegments template) ⟨PathIndex.root, ∅⟩ state) fun _ => False :=
    walkTemplate_yields hproper
  cases hwalk : walkTemplate template state with
  | ok answer s => exact ⟨answer, s, rfl, hyields.answer hwalk⟩
  | error abort s => exact (hyields.abort hwalk).elim

/-- The index is proper after parameters have been collected if it was before. -/
theorem proper_collectParameters {entries : List (OrReference Parameter)} {index : Nat}
    {collected answer : ParameterMap}
    (hrequests : document.parameterRequests template entries ⊆ document.requests)
    (hproper : state.index.Proper)
    (h : collectParameters ⟨document, cancelAt⟩ template index entries collected state =
      .ok answer state') : state'.index.Proper :=
  have hbuilds : state.Builds state' := ((building_builds (.any _) state).collectParameters
    hrequests (fun _ _ => trivial) index collected state (.refl state)).answer h
  hbuilds.outline.proper hproper

/-- What follows the walk along a template: its operations are extracted if it leads to a node. -/
def afterWalk (context : Context) (template : String) (item : PathItem) (shared : ParameterMap) :
    Option WalkedPath → Extraction Unit
  | none => pure ()
  | some walked => extractOperations context template shared walked item.operations

/-- What follows the walk along a template answers where the complete extraction takes it up. -/
theorem afterWalk_answers (limit : Nat) {answer : Option WalkedPath} {s : ExtractionState}
    (hpath : (template, item) ∈ document.pathEntries) (hproper : state.index.Proper)
    (hstate : state.resolver.cancelled = false) (hwalk : walkTemplate template state = .ok answer s)
    (h : afterWalk ⟨document, none⟩ template item shared answer s = .ok () state') :
    state'.index.Proper ∧ ∃ s',
      afterWalk ⟨document, some limit⟩ template item shared answer s = .ok () s' := by
  obtain ⟨_, _, hwalk', hwalked⟩ := walkTemplate_eq_ok template hproper
  cases hwalk'.symm.trans hwalk
  cases answer with
  | none =>
    cases h
    exact ⟨hwalked.laid.proper, _, rfl⟩
  | some walked =>
    obtain ⟨-, hresolver, hdescend⟩ := hwalked.accepted walked rfl
    exact extractOperations_answers hpath hwalked.laid.proper
      (PathIndex.lt_of_descend s.index.root_lt hdescend) (hresolver ▸ hstate) h

/-- After the cancellation, nothing is extracted. -/
theorem afterWalk_of_cancelled (context : Context) (hstate : state.resolver.cancelled = true)
    (answer : Option WalkedPath) :
    afterWalk context template item shared answer state = .ok () state := by
  cases answer with
  | none => rfl
  | some walked =>
    rw [afterWalk, extractOperations_eq]
    exact untilCancelled_of_cancelled _ hstate

/-- A path answers where the complete extraction takes it up.

**Proof sketch.** Shared parameters always answer, and a template is laid into any proper index.
If the extraction was cancelled by then, no operation is taken up. -/
theorem extractPath_answers (hpath : (template, item) ∈ document.pathEntries)
    (hproper : state.index.Proper) (hstate : state.resolver.cancelled = false)
    (h : extractPath ⟨document, none⟩ template item state = .ok () state') :
    state'.index.Proper ∧ ∃ s,
      extractPath ⟨document, some limit⟩ template item state = .ok () s := by
  have hrequests := (List.append_subset.1 (Document.pathRequests_subset hpath)).1
  have hshared : AnswersAlways document limit
      (collectParameters ⟨document, none⟩ template 0 item.parameters ∅)
      (collectParameters ⟨document, some limit⟩ template 0 item.parameters ∅) :=
    answersAlways_collectParameters hrequests 0 ∅
  obtain ⟨shared, s₁, hcollect, hrest⟩ := bind_eq_ok_iff.1 h
  obtain ⟨answer, s₂, hwalk, hlast⟩ := bind_eq_ok_iff.1 hrest
  have hactive : s₁.resolver.cancelled = false := (hshared.grows _ _ _ hcollect).2.trans hstate
  obtain ⟨hproper', s, hafter⟩ := afterWalk_answers limit hpath
    (proper_collectParameters hrequests hproper hcollect) hactive hwalk hlast
  refine ⟨hproper', ?_⟩
  obtain ⟨shared', s₁', hcut⟩ := hshared.answers hstate hcollect
  rcases hshared.eq_or_cancelled hstate hcollect hcut with ⟨rfl, rfl, -⟩ | hcancelled
  · exact ⟨s, (bind_of_ok hcut).trans ((bind_of_ok hwalk).trans hafter)⟩
  obtain ⟨answer', s₂', hwalkCut, -⟩ := walkTemplate_eq_ok template
    (proper_collectParameters hrequests hproper hcut)
  have hcancelled' : s₂'.resolver.cancelled = true :=
    ((congruence_cutShort document limit).walkSegments template _ _).cancelled_of_ok hcancelled
      hwalkCut
  exact ⟨s₂', (bind_of_ok hcut).trans ((bind_of_ok hwalkCut).trans
    (afterWalk_of_cancelled _ hcancelled' answer'))⟩

/-- **The pass over paths answers where the complete one does.** -/
theorem extractPaths_answers (limit : Nat) (hproper : state.index.Proper)
    (hstate : state.resolver.cancelled = false)
    (h : extractPaths ⟨document, none⟩ document.pathEntries state = .ok () state') :
    ∃ s, extractPaths ⟨document, some limit⟩ document.pathEntries state = .ok () s := by
  rw [extractPaths_eq] at h ⊢
  refine (untilCancelled_answers (fun s => s.index.Proper) (fun entry hentry =>
    (congruence_cutShort document limit).extractPath (Document.pathRequests_subset hentry)) ?_
    hproper hstate h).2
  rintro entry hentry before ⟨⟩ after hproper hactive hstep
  obtain ⟨hproper', s, hcut⟩ := extractPath_answers hentry hproper hactive hstep
  exact ⟨hproper', (), s, hcut⟩

end Paths

/-- The resolution of a component always answers. -/
theorem answersAlways_resolveComponent {id : String} {node : Node}
    (hfind : document.schemas.find? id = some node) :
    AnswersAlways document limit (ofResolver (resolveComponent ⟨document, none⟩ id node))
      (ofResolver (resolveComponent ⟨document, some limit⟩ id node)) where
  toCutShort := cutShort_resolveComponent hfind
  answers := by
    intro state answer state' hstate h
    obtain ⟨resolver, hcomponent, rfl⟩ := ofResolver_ok h
    rcases resolveComponent_ok hcomponent with
      ⟨hknown, -, -⟩ | ⟨resolution, s, hname, hmemo, -, hrun, -⟩
    · exact ⟨_, _, ofResolver_eq_ok (resolveComponent_of_known hknown)⟩
    · obtain ⟨resolution', s', hcut, -⟩ := hrun.eq_or_breaksOff hstate (.component hfind) limit
      exact ⟨_, _, ofResolver_eq_ok (resolveComponent_of_runs hname hmemo hcut)⟩
  late := by
    intro state hstate
    by_cases hknown : state.resolver.repository.contains id = true ∨
        state.resolver.memo.contains id = true
    · exact ⟨_, _, ofResolver_eq_ok (resolveComponent_of_known hknown)⟩
    · obtain ⟨hname, hmemo⟩ := not_or.1 hknown
      rw [Bool.not_eq_true] at hname hmemo
      exact ⟨_, _, ofResolver_eq_ok (resolveComponent_of_runs hname hmemo (.cancelled hstate))⟩

/-- **The pass over components always answers.** -/
theorem answersAlways_extractComponents :
    AnswersAlways document limit (extractComponents ⟨document, none⟩ document.schemas.entries)
      (extractComponents ⟨document, some limit⟩ document.schemas.entries) :=
  (building_answersAlways document limit).extractComponents _ _ fun _ hentry =>
    answersAlways_resolveComponent (SortedMap.find?_of_mem_entries hentry)

end Extraction

end ApiCatalog
