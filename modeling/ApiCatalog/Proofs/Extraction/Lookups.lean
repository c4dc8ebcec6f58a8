import ApiCatalog.Proofs.Extraction.Indexing
import ApiCatalog.Proofs.Resolution.Encounters

set_option autoImplicit false

/-!
# Look-ups of an extraction

The parts of an operation that are references, and the references in the schemas that it asks for,
are taken up one after the other. In an extraction that was not cancelled each of them was looked
up with success, or its report is among the diagnostics at the end.

## Main definitions

* `Extraction.Ensures`: what a step has seen to by the time of any later state.
* `ApiCatalog.LookedUp`: a part was found, or the reason why not was reported.
* `Extraction.TakesUpParameters`, `Extraction.TakesUp`: the parts of parameters, and of an
  operation, are found or reported, and their schemas are resolved.

## Main results

* `Ensures.bind`: one step after another.
* `Extraction.ensures_collectParameters`: parameters are found or reported.
* `Extraction.ensures_buildEndpoint`: building an endpoint takes up its operation.
-/

namespace ApiCatalog

/-! ## What steps see to -/

namespace Extraction

/-- A step that answers takes nothing away, and it has seen to something by the time of any later
state of an extraction that was not cancelled. -/
structure Ensures {α : Type} (step : Extraction α) (goal : ResolverState → Prop) : Prop where
  grows : ∀ {state answer state'}, step state = .ok answer state' → state.Grows state'
  goal : ∀ {state answer state'}, step state = .ok answer state' →
    ∀ final : ExtractionState, state'.Grows final → final.resolver.cancelled = false →
      goal final.resolver

namespace Ensures

variable {α β : Type} {goal first second : ResolverState → Prop} {x : Extraction α}
  {f : α → Extraction β}

/-- Less may be asked for. -/
theorem mono (h : Ensures x first) (hgoal : ∀ final, first final → goal final) :
    Ensures x goal :=
  ⟨h.grows, fun hstep final hgrows hend => hgoal _ (h.goal hstep final hgrows hend)⟩

/-- What is so anyway need not be seen to. -/
theorem pure {a : α} (h : ∀ final, goal final) : Ensures (pure a) goal where
  grows := by
    intro state answer state' hstep
    cases hstep
    exact .refl state
  goal := fun _ final _ _ => h final.resolver

/-- **One step after another** sees to what each of them sees to. -/
theorem bind (hx : Ensures x first) (hf : ∀ a, Ensures (f a) second) :
    Ensures (x >>= f) fun final => first final ∧ second final where
  grows := by
    intro state answer state' hstep
    obtain ⟨a, s, hfirst, hrest⟩ := bind_eq_ok_iff.1 hstep
    exact (hx.grows hfirst).trans ((hf a).grows hrest)
  goal := by
    intro state answer state' hstep final hlater hend
    obtain ⟨a, s, hfirst, hrest⟩ := bind_eq_ok_iff.1 hstep
    exact ⟨hx.goal hfirst final (((hf a).grows hrest).trans hlater) hend,
      (hf a).goal hrest final hlater hend⟩

/-- A step of which nothing but the first part matters. -/
theorem before (hx : Ensures x goal) (hf : ∀ a, Ensures (f a) fun _ => True) :
    Ensures (x >>= f) goal :=
  (hx.bind hf).mono fun _ h => h.1

/-- A step whose answer is turned into another. -/
theorem andThen {b : α → β} (hx : Ensures x goal) :
    Ensures (do let a ← x; return b a) goal :=
  hx.before fun _ => .pure fun _ => trivial

/-- A step of which nothing but what follows matters. -/
theorem after (hx : Ensures x first) (hf : ∀ a, Ensures (f a) goal) : Ensures (x >>= f) goal :=
  (hx.bind hf).mono fun _ h => h.2

/-- A step that depends on a value, if there is one. -/
theorem ofExceptBind {result : Except Abort α} (hf : ∀ a, result = .ok a → Ensures (f a) goal) :
    Ensures (Extraction.ofExcept result >>= f) goal := by
  rw [ofExcept_bind]
  cases result with
  | error abort => exact ⟨fun hstep => (nomatch hstep), fun hstep => nomatch hstep⟩
  | ok a => exact hf a rfl

/-- A step that is taken unless the extraction was cancelled. -/
theorem unlessCancelled {a : α} (h : Ensures x goal) :
    Ensures (do if ← Extraction.isCancelled then return a else x) goal where
  grows := by
    intro state answer state' hstep
    obtain ⟨_, _, hcancelled, hstep⟩ := bind_eq_ok_iff.1 hstep
    cases hcancelled
    split at hstep
    · cases hstep
      exact .refl state
    · exact h.grows hstep
  goal := by
    intro state answer state' hstep final hgrows hend
    obtain ⟨_, _, hcancelled, hstep⟩ := bind_eq_ok_iff.1 hstep
    cases hcancelled
    split at hstep
    · next hcancelled =>
      cases hstep
      rw [hgrows.not_cancelled hend] at hcancelled
      cases hcancelled
    · exact h.goal hstep final hgrows hend

/-- A diagnostic is there at the end. -/
theorem record (diagnostic : Diagnostic) :
    Ensures (Extraction.record diagnostic) fun final => diagnostic ∈ final.diagnostics where
  grows := by
    intro state answer state' hstep
    cases hstep
    exact ⟨.record _ _, fun _ _ h => h⟩
  goal := by
    intro state answer state' hstep final hgrows _
    cases hstep
    exact hgrows.resolver.diagnostics.subset (List.mem_append_right _ List.mem_cons_self)

/-- A change of the index concerns nothing else. -/
theorem changeIndex (change : PathIndex → Except PathIndexError (α × PathIndex)) :
    Ensures (Extraction.changeIndex change) fun _ => True where
  grows := by
    intro state answer state' hstep
    rcases changeIndex_ok hstep with ⟨-, -, rfl⟩ | ⟨-, index, -, -, rfl⟩
    · exact .refl _
    · exact ⟨.refl _, fun _ _ h => h⟩
  goal := fun _ _ _ _ => trivial

/-- A schema of an endpoint is resolved. -/
theorem resolveBound (context : Context) (node : Node) (name : ModelName) :
    Ensures (Extraction.resolveBound context node name) (Resolves context [] name node) where
  grows := grows_resolveBound
  goal := by
    intro state answer state' hstep final hgrows hend
    obtain ⟨resolution, resolver, hrun, rfl⟩ := resolveBound_ok hstep
    have hruns : Frame.RunsUpTo context ⟨[], .atNode node name false, state.resolver⟩
        final.resolver := ⟨_, _, hrun, hgrows.resolver⟩
    exact ⟨state.resolver, hruns, hruns.deals hend⟩

end Ensures

end Extraction

/-! ## Parts of an operation -/

/-- A part is written in place or its reference leads to a component; or else the reason why it does
not was reported. -/
def LookedUp {α : Type} (lookUp : OrReference α → Lookup α) (hint : String) (part : OrReference α)
    (final : ResolverState) : Prop :=
  (∃ found, lookUp part = .ok (.ok found)) ∨ ∃ error, lookUp part = .ok (.error error) ∧
    .unresolvedReference hint (part.target?.getD "") error.message ∈ final.diagnostics

namespace Extraction

/-- Schemas that are asked for are resolved. -/
def ResolvesAll (context : Context) (requests : List (ModelName × Node)) (final : ResolverState) :
    Prop :=
  ∀ request ∈ requests, Resolves context [] request.1 request.2 final

/-- The parameters of a list, the first of which has number `index`, are found or reported, and
their schemas are resolved. -/
structure TakesUpParameters (context : Context) (template : String) (index : Nat)
    (entries : List (OrReference Parameter)) (final : ResolverState) : Prop where
  parameters : ∀ i entry, entries[i]? = some entry → LookedUp context.document.parameter
    (template ++ " parameter #" ++ toString (index + i)) entry final
  schemas : ResolvesAll context (context.document.parameterRequests template entries) final

/-- The parts of an operation are found or reported, and their schemas are resolved. Responses
count if their keys can be read. -/
structure TakesUp (context : Context) (template : String) (method : HttpMethod)
    (operation : Operation) (final : ResolverState) : Prop where
  parameters : TakesUpParameters context template 0 operation.parameters final
  body : ∀ body, operation.requestBody = some body → LookedUp context.document.requestBody
    (method.name ++ " " ++ template ++ " request body") body final
  bodySchemas : ResolvesAll context (contentRequests (Naming.requestBody template method)
    (context.document.bodyContent operation)) final
  responses : ∀ key response status, (key, response) ∈ operation.responseEntries →
    StatusKey.ofText? key = some status → LookedUp context.document.response
      (method.name ++ " " ++ template ++ " response " ++ status.text) response final
  responseSchemas : ResolvesAll context
    (context.document.responseRequests template method operation.responseEntries) final

section Operations

variable {context : Context} {template : String} {method : HttpMethod}

/-- No schema is asked for. -/
theorem resolvesAll_nil {final : ResolverState} : ResolvesAll context [] final :=
  fun _ h => nomatch h

/-- Schemas are resolved, and then others. -/
theorem ResolvesAll.append {requests others : List (ModelName × Node)} {final : ResolverState}
    (h : ResolvesAll context requests final) (hothers : ResolvesAll context others final) :
    ResolvesAll context (requests ++ others) final := fun request hrequest =>
  (List.mem_append.1 hrequest).elim (h request) (hothers request)

/-- A parameter is found or reported, and its schema is resolved. -/
theorem ensures_collectParameter (index : Nat) (entry : OrReference Parameter)
    (collected : ParameterMap) :
    Ensures (collectParameter context template index entry collected) fun final =>
      LookedUp context.document.parameter (template ++ " parameter #" ++ toString index) entry
        final ∧
      ResolvesAll context (context.document.parameterRequests template [entry]) final := by
  refine .ofExceptBind fun result hresult => ?_
  have hnone : context.document.declaredParameter? template entry = none →
      ∀ final, ResolvesAll context (context.document.parameterRequests template [entry]) final := by
    intro h final
    rw [Document.parameterRequests, Document.declaredParameters, List.filterMap_cons, h]
    exact resolvesAll_nil
  cases result with
  | error error =>
    refine (Ensures.record _).andThen.mono fun final h => ?_
    exact ⟨.inr ⟨error, hresult, h⟩,
      hnone (by simp [Document.declaredParameter?, hresult]) final⟩
  | ok found =>
    have hfound : ∀ final, LookedUp context.document.parameter
        (template ++ " parameter #" ++ toString index) entry final :=
      fun _ => .inl ⟨found, hresult⟩
    show Ensures (addParameter context template index found collected) _
    unfold addParameter
    split
    · next hblank =>
      refine (Ensures.record _).andThen.mono fun final _ => ?_
      exact ⟨hfound final, hnone (by simp [Document.declaredParameter?, hresult, hblank]) final⟩
    · next hblank =>
      cases hnode : found.schema? with
      | none =>
        refine (Ensures.record _).andThen.mono fun final _ => ?_
        exact ⟨hfound final,
          hnone (by simp [Document.declaredParameter?, hresult, hblank, hnode]) final⟩
      | some node =>
        refine (Ensures.resolveBound _ _ _).andThen.mono fun final h => ⟨hfound final, ?_⟩
        have hone : context.document.parameterRequests template [entry] =
            [(Naming.pathParameter template found.name, node)] := by
          simp [Document.parameterRequests, Document.declaredParameters,
            Document.declaredParameter?, hresult, hblank, hnode]
        rw [hone]
        exact List.forall_mem_singleton.2 h

/-- **Parameters are found or reported**, and their schemas are resolved. -/
theorem ensures_collectParameters (entries : List (OrReference Parameter)) (index : Nat)
    (collected : ParameterMap) :
    Ensures (collectParameters context template index entries collected)
      (TakesUpParameters context template index entries) := by
  induction entries generalizing index collected with
  | nil => exact .pure fun _ => ⟨fun _ _ h => (nomatch h), resolvesAll_nil⟩
  | cons entry rest ih =>
    refine .unlessCancelled (((ensures_collectParameter index entry collected).bind
      fun collected => ih (index + 1) collected).mono ?_)
    rintro final ⟨⟨hfirst, hschema⟩, hrest⟩
    refine ⟨fun i other hother => ?_, ?_⟩
    · cases i with
      | zero =>
        cases hother
        exact hfirst
      | succ i =>
        rw [← Nat.add_assoc, Nat.add_right_comm]
        exact hrest.parameters i other hother
    · rw [Document.parameterRequests_cons]
      exact hschema.append hrest.schemas

/-- The schemas of media types are resolved. -/
theorem ensures_collectContent {nameOf : String → ModelName} (content : List (String × MediaType))
    (collected : OrderedMap String ModelName) :
    Ensures (collectContent context nameOf content collected)
      (ResolvesAll context (contentRequests nameOf content)) := by
  induction content generalizing collected with
  | nil => exact .pure fun _ => resolvesAll_nil
  | cons entry rest ih =>
    obtain ⟨mediaType, media⟩ := entry
    rw [Document.contentRequests_cons]
    unfold collectContent
    cases hnode : media.schema with
    | none => exact ih collected
    | some node =>
      refine ((Ensures.resolveBound _ _ _).bind fun _ => ih _).mono fun final h => ?_
      exact ResolvesAll.append (List.forall_mem_singleton.2 h.1) h.2

/-- A request body is found or reported, and its schemas are resolved. -/
theorem ensures_collectRequestBodies (operation : Operation) :
    Ensures (collectRequestBodies context template method operation.requestBody) fun final =>
      (∀ body, operation.requestBody = some body → LookedUp context.document.requestBody
        (method.name ++ " " ++ template ++ " request body") body final) ∧
      ResolvesAll context (contentRequests (Naming.requestBody template method)
        (context.document.bodyContent operation)) final := by
  cases hbody : operation.requestBody with
  | none =>
    refine .pure fun final => ⟨fun _ h => (nomatch h), ?_⟩
    rw [Document.bodyContent, hbody]
    exact resolvesAll_nil
  | some body =>
    refine .ofExceptBind fun result hresult => ?_
    cases result with
    | error error =>
      refine (Ensures.record _).andThen.mono fun final h => ?_
      refine ⟨?_, ?_⟩
      · rintro _ ⟨⟩
        exact .inr ⟨error, hresult, h⟩
      · simp only [Document.bodyContent, hbody, hresult]
        exact resolvesAll_nil
    | ok found =>
      refine (ensures_collectContent found.content.entries ∅).mono fun final h => ?_
      refine ⟨?_, ?_⟩
      · rintro _ ⟨⟩
        exact .inl ⟨found, hresult⟩
      · rw [Document.bodyContent_of_found hbody hresult]
        exact h

/-- A response under a key that can be read is found or reported, and its schemas are resolved. -/
theorem ensures_collectResponse (key : String) (response : OrReference Response)
    (collected : ResponseMap) :
    Ensures (collectResponse context template method key response collected) fun final =>
      (∀ status, StatusKey.ofText? key = some status → LookedUp context.document.response
        (method.name ++ " " ++ template ++ " response " ++ status.text) response final) ∧
      ResolvesAll context (context.document.responseRequests template method [(key, response)])
        final := by
  have hnone : context.document.declaredResponse? (key, response) = none → ∀ final,
      ResolvesAll context (context.document.responseRequests template method [(key, response)])
        final := by
    intro h final
    rw [Document.responseRequests, Document.declaredResponses, List.filterMap_cons, h]
    exact resolvesAll_nil
  unfold collectResponse
  cases hkey : StatusKey.ofText? key with
  | none =>
    refine (Ensures.record _).andThen.mono fun final _ => ?_
    refine ⟨fun _ h => ?_, hnone (by simp [Document.declaredResponse?, hkey]) final⟩
    cases h
  | some status =>
    refine .ofExceptBind fun result hresult => ?_
    cases result with
    | error error =>
      refine (Ensures.record _).andThen.mono fun final h => ?_
      refine ⟨?_, hnone (by simp [Document.declaredResponse?, hkey, hresult]) final⟩
      rintro _ ⟨⟩
      exact .inr ⟨error, hresult, h⟩
    | ok found =>
      refine (ensures_collectContent found.content.entries ∅).andThen.mono
        fun final h => ⟨?_, ?_⟩
      · rintro _ ⟨⟩
        exact .inl ⟨found, hresult⟩
      · rw [Document.responseRequests_singleton hkey hresult]
        exact h

/-- **Responses under keys that can be read are found or reported**, and their schemas are
resolved. -/
theorem ensures_collectResponses (entries : List (String × OrReference Response))
    (collected : ResponseMap) :
    Ensures (collectResponses context template method entries collected) fun final =>
      (∀ key response status, (key, response) ∈ entries → StatusKey.ofText? key = some status →
        LookedUp context.document.response
          (method.name ++ " " ++ template ++ " response " ++ status.text) response final) ∧
      ResolvesAll context (context.document.responseRequests template method entries) final := by
  induction entries generalizing collected with
  | nil => exact .pure fun _ => ⟨fun _ _ _ h => (nomatch h), resolvesAll_nil⟩
  | cons entry rest ih =>
    obtain ⟨key, response⟩ := entry
    refine .unlessCancelled (((ensures_collectResponse key response collected).bind
      fun collected => ih collected).mono ?_)
    rintro final ⟨⟨hfirst, hschemas⟩, hrest, hothers⟩
    refine ⟨fun key' response' status hmem hkey => ?_, ?_⟩
    · rcases List.mem_cons.1 hmem with heq | hmem
      · cases heq
        exact hfirst status hkey
      · exact hrest key' response' status hmem hkey
    · rw [Document.responseRequests_cons]
      exact hschemas.append hothers

/-- Binding a path parameter takes nothing away. -/
theorem ensures_bindParameter (walked : WalkedPath) (parameter : EndpointParameter) :
    Ensures (bindParameter template method walked parameter) fun _ => True := by
  unfold bindParameter bindParameterWith
  cases walked.parameters.find? parameter.name with
  | none => exact (Ensures.record _).mono fun _ _ => trivial
  | some id =>
    refine (Ensures.changeIndex _).after fun found => ?_
    cases found with
    | error error => exact (Ensures.record _).mono fun _ _ => trivial
    | ok bound => exact .pure fun _ => trivial

/-- Binding path parameters takes nothing away. -/
theorem ensures_bindParameters (walked : WalkedPath) (parameters : List EndpointParameter) :
    Ensures (bindParameters template method walked parameters) fun _ => True := by
  induction parameters with
  | nil => exact .pure fun _ => trivial
  | cons parameter rest ih =>
    rw [bindParameters, bindParametersWith]
    split
    · exact (ensures_bindParameter walked parameter).after fun _ => ih
    · exact ih

/-- **Building an endpoint takes up its operation.** -/
theorem ensures_buildEndpoint (operation : Operation) (shared : ParameterMap)
    (walked : WalkedPath) :
    Ensures (buildEndpoint context template method operation shared walked)
      (TakesUp context template method operation) := by
  refine Ensures.mono ((ensures_collectParameters _ _ _).bind fun own =>
    (ensures_bindParameters walked _).after fun _ =>
    (ensures_collectRequestBodies operation).bind fun _ =>
    (ensures_collectResponses operation.responseEntries ∅).andThen) ?_
  rintro final ⟨hparameters, ⟨hbody, hbodySchemas⟩, hresponses, hresponseSchemas⟩
  exact ⟨hparameters, hbody, hbodySchemas, hresponses, hresponseSchemas⟩

end Operations

end Extraction

end ApiCatalog
