import ApiCatalog.Proofs.Document.Entries
import ApiCatalog.Proofs.Extraction.Cancellation
import ApiCatalog.Proofs.Extraction.Recording
import ApiCatalog.Proofs.Extraction.Relations
import ApiCatalog.Proofs.Extraction.Turns
import ApiCatalog.Proofs.PathIndex.Persistence

set_option autoImplicit false

/-!
# Entries that are rejected

An entry that is rejected leaves nothing behind but the report of it. So an extraction that does not
come across it goes on in the same way, and lacks the report. Parameters that come after it in a
list have other numbers there, which shows in reports of them only.

## Main definitions

* `Diagnostic.Renumbered`: reports of parameters that have moved up by one place.
* `ExtractionState.Spared`: two states that are the same but for a report.
* `Extraction.Omits`: an operation lacks an entry of another one which is rejected.

## Main results

* `Extraction.congruence_spared`: what goes on in the same way.
* `Extraction.relates_collectParameters`, `Extraction.omits_parameter`, `Extraction.omits_body`,
  `Extraction.omits_response`: what lacks the report.
* `Extraction.relates_extractOperation`, `Extraction.spared_extractOperations`: operations of a
  path one of which lacks an entry.
-/

namespace ApiCatalog

/-! ## Reports that are lacking -/

/-- What is reported of the parameters of a template if they move up by one place in their list:
only numbers change. -/
inductive Diagnostic.Renumbered (template : String) : Diagnostic → Diagnostic → Prop
  | same (diagnostic : Diagnostic) : Renumbered template diagnostic diagnostic
  | unnamed (index : Nat) :
    Renumbered template (.unnamedParameter template (index + 1)) (.unnamedParameter template index)
  | unresolved (index : Nat) (reference error : String) :
    Renumbered template
      (.unresolvedReference (template ++ " parameter #" ++ toString (index + 1)) reference error)
      (.unresolvedReference (template ++ " parameter #" ++ toString index) reference error)

/-- A list of diagnostics lacks one of those in another list. What comes after it may be reported
in another way. -/
def Lacks (renumbers : Diagnostic → Diagnostic → Prop) (diagnostic : Diagnostic)
    (all rest : List Diagnostic) : Prop :=
  ∃ before after after', all = before ++ diagnostic :: after ∧ rest = before ++ after' ∧
    List.Forall₂ renumbers after after'

/-- A state with other diagnostics. -/
def ExtractionState.withDiagnostics (state : ExtractionState) (diagnostics : List Diagnostic) :
    ExtractionState :=
  { state with resolver := { state.resolver with diagnostics } }

/-- Two states are the same but for a diagnostic that the second one lacks. If the extraction was
cancelled before, it need not lack it. -/
def ExtractionState.Spared (renumbers : Diagnostic → Diagnostic → Prop) (diagnostic : Diagnostic)
    (s s' : ExtractionState) : Prop :=
  ∃ diagnostics, s' = s.withDiagnostics diagnostics ∧
    ((s.resolver.cancelled = true ∧ List.Forall₂ renumbers s.resolver.diagnostics diagnostics) ∨
      Lacks renumbers diagnostic s.resolver.diagnostics diagnostics)

section Reports

variable {renumbers : Diagnostic → Diagnostic → Prop} {diagnostic : Diagnostic}

/-- Something more is reported on both sides. -/
theorem Lacks.record {all rest : List Diagnostic} {reported reported' : Diagnostic}
    (h : Lacks renumbers diagnostic all rest) (hreported : renumbers reported reported') :
    Lacks renumbers diagnostic (all ++ [reported]) (rest ++ [reported']) := by
  obtain ⟨before, after, after', rfl, rfl, hafter⟩ := h
  exact ⟨before, after ++ [reported], after' ++ [reported'], by simp, by simp,
    List.rel_append hafter (.cons hreported .nil)⟩

namespace ExtractionState

variable {s s' : ExtractionState}

/-- A report that is lacking. -/
theorem Spared.of_record (s : ExtractionState) :
    Spared renumbers diagnostic (s.withResolver (s.resolver.record diagnostic)) s :=
  ⟨s.resolver.diagnostics, rfl, .inr ⟨_, [], [], rfl, (List.append_nil _).symm, .nil⟩⟩

/-- Nothing is lacking after the cancellation. -/
theorem Spared.of_cancelled (hsame : ∀ other, renumbers other other)
    (h : s.resolver.cancelled = true) : Spared renumbers diagnostic s s :=
  ⟨s.resolver.diagnostics, rfl, .inl ⟨h, List.forall₂_same.2 fun other _ => hsame other⟩⟩

/-- Something more is reported in both states. -/
theorem Spared.record {reported reported' : Diagnostic} (h : Spared renumbers diagnostic s s')
    (hreported : renumbers reported reported') :
    Spared renumbers diagnostic (s.withResolver (s.resolver.record reported))
      (s'.withResolver (s'.resolver.record reported')) := by
  obtain ⟨diagnostics, rfl, ⟨hcancelled, hlists⟩ | hlacks⟩ := h
  · exact ⟨_, rfl, .inl ⟨hcancelled, List.rel_append hlists (.cons hreported .nil)⟩⟩
  · exact ⟨_, rfl, .inr (hlacks.record hreported)⟩

end ExtractionState

end Reports

namespace Extraction

open ExtractionState

variable {document : Document} {cut : Option Nat} {template : String} {method : HttpMethod}
  {operation operation' : Operation} {shared : ParameterMap} {walked : WalkedPath} {γ : Type}
  {renumbers : Diagnostic → Diagnostic → Prop} {diagnostic : Diagnostic}

/-! ## What goes on in the same way -/

section Same

variable (hsame : ∀ other, renumbers other other)

include hsame

/-- The basic steps of building an endpoint do not look at diagnostics. -/
theorem respects_spared (cut : Option Nat) :
    Respects cut cut (Spared renumbers diagnostic) where
  cancelled := by rintro s _ ⟨diagnostics, rfl, -⟩; rfl
  contains := by rintro s _ ⟨diagnostics, rfl, -⟩ name; rfl
  find? := by rintro s _ ⟨diagnostics, rfl, -⟩ name; rfl
  index := by rintro s _ ⟨diagnostics, rfl, -⟩; rfl
  register := by
    rintro s _ ⟨diagnostics, rfl, hlists⟩ model
    refine ⟨diagnostics, rfl, hlists.imp_left fun h => ⟨?_, h.2⟩⟩
    show (s.resolver.cancelled || _) = true
    rw [h.1, Bool.true_or]
  record h other _ := h.record (hsame other)
  memoise := by
    rintro s _ ⟨diagnostics, rfl, hlists⟩ name resolution
    refine ⟨diagnostics, ?_, ?_⟩
    · unfold withResolver withDiagnostics ResolverState.memoise
      dsimp only
      split <;> rfl
    · unfold withResolver ResolverState.memoise
      split <;> exact hlists
  bindName := by
    rintro s _ ⟨diagnostics, rfl, hlists⟩ name references
    exact ⟨diagnostics, rfl, hlists⟩
  bindNode := by
    rintro s _ ⟨diagnostics, rfl, hlists⟩ id schema bound index -
    exact ⟨diagnostics, rfl, hlists⟩

/-- **The pass over paths goes on in the same way** when a report is lacking. -/
theorem congruence_spared (document : Document) (cut : Option Nat) :
    Congruence document cut cut fun _ step step' =>
      Related (Spared renumbers diagnostic) step step' where
  pure _ := .pure fun _ _ hs => hs
  bind hx hf := Relates.bind hx hf
  isCancelled := fun s s' hs => ⟨(respects_spared hsame cut).cancelled hs, hs⟩
  bound _ := (respects_spared hsame cut).resolveBound _ _
  hasEndpoint id method := by
    rintro s _ ⟨diagnostics, rfl, hlists⟩
    exact ⟨rfl, diagnostics, rfl, hlists⟩
  ofExcept result := by
    cases result <;> exact fun _ _ hs => ⟨rfl, hs⟩
  record other := fun _ _ hs => ⟨rfl, hs.record (hsame other)⟩
  changeIndex change := by
    rintro s _ ⟨diagnostics, rfl, hlists⟩
    simp only [changeIndex_apply, withDiagnostics]
    cases change s.index <;> exact ⟨rfl, diagnostics, rfl, hlists⟩

/-! ## What lacks the report -/

/-- A step that is not taken after the cancellation. -/
theorem relates_unlessCancelled {a : γ} {x x' : Extraction γ}
    (h : Relates Eq x x' (fun _ => Spared renumbers diagnostic) fun _ _ => True) :
    Relates Eq (do if ← isCancelled then return a else x)
      (do if ← isCancelled then return a else x')
      (fun _ => Spared renumbers diagnostic) fun _ _ => True := by
  rintro s _ rfl
  have hasked : isCancelled s = .ok s.resolver.cancelled s := rfl
  rw [bind_of_ok hasked, bind_of_ok hasked]
  cases hcancelled : s.resolver.cancelled with
  | true => exact ⟨rfl, .of_cancelled hsame hcancelled⟩
  | false => exact h s s rfl

/-- Something that is only reported comes first, and is lacking on the other side. -/
theorem relates_reported {a : γ} {rest : γ → Extraction γ} {x : Extraction γ}
    (hidle : ∀ s, s.resolver.cancelled = true → x s = .ok a s)
    (hrest : Related (Spared renumbers diagnostic) (rest a) x) :
    Relates Eq (do if ← isCancelled then return a else (do record diagnostic; return a) >>= rest) x
      (fun _ => Spared renumbers diagnostic) fun _ _ => True := by
  rintro s _ rfl
  have hasked : isCancelled s = .ok s.resolver.cancelled s := rfl
  rw [bind_of_ok hasked]
  cases hcancelled : s.resolver.cancelled with
  | true =>
    rw [hidle s hcancelled]
    exact ⟨rfl, .of_cancelled hsame hcancelled⟩
  | false =>
    exact hrest.mono (fun _ _ h => h) (fun _ _ _ h => h) (fun _ _ _ => trivial) _ _
      (Spared.of_record s)

end Same

/-! ### Parameters -/

/-- A parameter that is complained of is only reported. -/
theorem collectParameter_of_complaint {entry : OrReference Parameter} {index : Nat}
    (h : document.parameterComplaint? template (entry, index) = some diagnostic)
    (collected : ParameterMap) :
    collectParameter ⟨document, cut⟩ template index entry collected =
      (do record diagnostic; return collected) := by
  unfold Document.parameterComplaint? at h
  unfold collectParameter
  split at h
  · cases h
  · next error hfound =>
    cases h
    rw [ofExcept_bind, hfound]
    rfl
  · next found hfound =>
    rw [ofExcept_bind, hfound]
    show addParameter _ _ _ _ _ = _
    unfold addParameter
    split at h
    · next hblank =>
      cases h
      rw [if_pos hblank]
    · next hnamed =>
      rw [if_neg hnamed]
      cases hschema : found.schema? with
      | none =>
        rw [hschema] at h
        cases h
        rfl
      | some node =>
        rw [hschema] at h
        cases h

/-- A parameter that has moved up by one place is taken up in the same way. -/
theorem related_collectParameter_succ (index : Nat) (entry : OrReference Parameter)
    (collected : ParameterMap) :
    Related (Spared (Diagnostic.Renumbered template) diagnostic)
      (collectParameter ⟨document, cut⟩ template (index + 1) entry collected)
      (collectParameter ⟨document, cut⟩ template index entry collected) := by
  have hreported : ∀ {reported reported' : Diagnostic}, reported.Renumbered template reported' →
      Related (Spared (Diagnostic.Renumbered template) diagnostic)
        (do record reported; return collected) (do record reported'; return collected) :=
    fun hrenumbered => Relates.bind (fun _ _ hs => ⟨rfl, hs.record hrenumbered⟩)
      fun _ => .pure fun _ _ hs => hs
  unfold collectParameter
  rw [ofExcept_bind, ofExcept_bind]
  cases document.parameter entry with
  | error abort => exact fun _ _ hs => ⟨rfl, hs⟩
  | ok result =>
    cases result with
    | error error => exact hreported (.unresolved index _ _)
    | ok found =>
      show Related _ (addParameter _ _ _ _ _) (addParameter _ _ _ _ _)
      unfold addParameter
      refine .ite (fun _ => hreported (.unnamed index)) fun _ => ?_
      cases found.schema? with
      | none => exact hreported (.same _)
      | some node =>
        exact ((respects_spared .same cut).resolveBound _ _).bind fun _ => .pure fun _ _ hs => hs

/-- Parameters that have moved up by one place are taken up in the same way. -/
theorem related_collectParameters_succ (entries : List (OrReference Parameter)) (index : Nat)
    (collected : ParameterMap) :
    Related (Spared (Diagnostic.Renumbered template) diagnostic)
      (collectParameters ⟨document, cut⟩ template (index + 1) entries collected)
      (collectParameters ⟨document, cut⟩ template index entries collected) := by
  induction entries generalizing index collected with
  | nil => exact .pure fun _ _ hs => hs
  | cons entry rest ih =>
    refine Relates.bind ((congruence_spared .same document cut).isCancelled) fun _ => ?_
    refine .ite (fun _ => .pure fun _ _ hs => hs) fun _ => ?_
    exact (related_collectParameter_succ index entry collected).bind fun _ => ih _ _

/-- **Parameters without one that is complained of** are taken up in the same way, and the complaint
is lacking.

**Proof sketch.** Induction on the parameters before it. Those after it move up by one place. -/
theorem relates_collectParameters {entry : OrReference Parameter}
    (earlier later : List (OrReference Parameter)) {index : Nat}
    (h : document.parameterComplaint? template (entry, index + earlier.length) = some diagnostic)
    (collected : ParameterMap) :
    Relates Eq
      (collectParameters ⟨document, cut⟩ template index (earlier ++ entry :: later) collected)
      (collectParameters ⟨document, cut⟩ template index (earlier ++ later) collected)
      (fun _ => Spared (Diagnostic.Renumbered template) diagnostic) fun _ _ => True := by
  induction earlier generalizing index collected with
  | nil =>
    rw [List.length_nil, Nat.add_zero] at h
    rw [List.nil_append, List.nil_append, collectParameters, collectParameter_of_complaint h]
    refine relates_reported .same (fun s hs => ?_) (related_collectParameters_succ later index _)
    cases later with
    | nil => rfl
    | cons first rest =>
      have hasked : isCancelled s = .ok true s := by rw [← hs]; rfl
      exact bind_of_ok hasked
  | cons first rest ih =>
    rw [List.cons_append, List.cons_append, collectParameters, collectParameters]
    refine relates_unlessCancelled .same ?_
    refine (Relates.refl _).anyhow.bind fun _ => ih ?_ _
    rwa [List.length_cons, ← Nat.add_assoc, Nat.add_right_comm] at h

/-! ### Request bodies and responses -/

/-- A request body that is complained of is only reported. -/
theorem collectRequestBodies_of_complaint
    (h : diagnostic ∈ document.bodyComplaints template method operation) :
    collectRequestBodies ⟨document, cut⟩ template method operation.requestBody =
      (do record diagnostic; return ∅) := by
  unfold Document.bodyComplaints at h
  split at h
  · cases h
  · next body hbody =>
    rw [hbody]
    split at h
    · next error hfound =>
      obtain rfl := List.mem_singleton.1 h
      show ofExcept (document.requestBody body) >>= _ = _
      rw [ofExcept_bind, hfound]
      rfl
    · cases h

/-- A response that is complained of is only reported. -/
theorem collectResponse_of_complaint {key : String} {response : OrReference Response}
    (h : document.responseComplaint? template method (key, response) = some diagnostic)
    (collected : ResponseMap) :
    collectResponse ⟨document, cut⟩ template method key response collected =
      (do record diagnostic; return collected) := by
  unfold Document.responseComplaint? at h
  unfold collectResponse
  split at h
  · next hkey =>
    cases h
    rw [hkey]
  · next status hkey =>
    rw [hkey]
    split at h
    · next error hfound =>
      cases h
      show ofExcept (document.response response) >>= _ = _
      rw [ofExcept_bind, hfound]
      rfl
    · cases h

/-- **Responses without one that is complained of** are taken up in the same way, and the complaint
is lacking. -/
theorem relates_collectResponses (hsame : ∀ other, renumbers other other) {key : String}
    {response : OrReference Response} {earlier later : List (String × OrReference Response)}
    (hrequests : document.responseRequests template method (earlier ++ (key, response) :: later) ⊆
      document.requests)
    (h : document.responseComplaint? template method (key, response) = some diagnostic)
    (collected : ResponseMap) :
    Relates Eq
      (collectResponses ⟨document, cut⟩ template method (earlier ++ (key, response) :: later)
        collected)
      (collectResponses ⟨document, cut⟩ template method (earlier ++ later) collected)
      (fun _ => Spared renumbers diagnostic) fun _ _ => True := by
  induction earlier generalizing collected with
  | nil =>
    rw [List.nil_append, Document.responseRequests_cons, List.append_subset] at hrequests
    rw [List.nil_append, List.nil_append, collectResponses, collectResponse_of_complaint h]
    refine relates_reported hsame (fun s hs => ?_) ((congruence_spared hsame
      document cut).collectResponses hrequests.2 (fun _ _ => trivial) _)
    cases later with
    | nil => rfl
    | cons first rest =>
      have hasked : isCancelled s = .ok true s := by rw [← hs]; rfl
      exact bind_of_ok hasked
  | cons first rest ih =>
    rw [List.cons_append, Document.responseRequests_cons, List.append_subset] at hrequests
    rw [List.cons_append, List.cons_append, collectResponses, collectResponses]
    exact relates_unlessCancelled hsame ((Relates.refl _).anyhow.bind fun _ => ih hrequests.2 _)

/-! ## Endpoints -/

/-- One operation lacks an entry of another one that is rejected: the same endpoint is built for it,
and the report is lacking. -/
def Omits (document : Document) (cut : Option Nat) (template : String) (method : HttpMethod)
    (renumbers : Diagnostic → Diagnostic → Prop) (diagnostic : Diagnostic)
    (operation operation' : Operation) : Prop :=
  ∀ shared walked, Relates Eq
    (buildEndpoint ⟨document, cut⟩ template method operation shared walked)
    (buildEndpoint ⟨document, cut⟩ template method operation' shared walked)
    (fun _ => Spared renumbers diagnostic) fun _ _ => True

section Operation

variable (hrequests : document.operationRequests template method operation ⊆ document.requests)

include hrequests

/-- **An operation without a parameter** that is complained of. -/
theorem omits_parameter {entry : OrReference Parameter}
    {earlier later : List (OrReference Parameter)}
    (hparameters : operation.parameters = earlier ++ entry :: later)
    (h : document.parameterComplaint? template (entry, earlier.length) = some diagnostic) :
    Omits document cut template method (Diagnostic.Renumbered template) diagnostic operation
      { operation with parameters := earlier ++ later } := by
  intro shared walked
  have hspared : Congruence document cut cut fun _ step step' =>
      Related (Spared (Diagnostic.Renumbered template) diagnostic) step step' :=
    congruence_spared .same document cut
  rw [Document.operationRequests, List.append_subset, List.append_subset] at hrequests
  rw [← Nat.zero_add earlier.length] at h
  unfold buildEndpoint buildEndpointWith
  rw [hparameters]
  refine (relates_collectParameters earlier later h _).bind fun own => ?_
  refine Relates.anyhow (Relates.bind (hspared.bindParameters template method walked _) fun _ => ?_)
  refine Relates.bind (hspared.collectRequestBodies hrequests.2.1 fun _ _ => trivial) fun _ => ?_
  exact Relates.bind (hspared.collectResponses hrequests.2.2 (fun _ _ => trivial) _)
    fun _ => .pure fun _ _ hs => hs

/-- **An operation without a request body** that is complained of. -/
theorem omits_body (hsame : ∀ other, renumbers other other)
    (h : diagnostic ∈ document.bodyComplaints template method operation) :
    Omits document cut template method renumbers diagnostic operation
      { operation with requestBody := none } := by
  intro shared walked
  have hspared : Congruence document cut cut fun _ step step' =>
      Related (Spared renumbers diagnostic) step step' := congruence_spared hsame document cut
  rw [Document.operationRequests, List.append_subset, List.append_subset] at hrequests
  refine (Relates.refl _).anyhow.bind fun own => ?_
  refine (Relates.refl _).anyhow.bind fun _ => ?_
  rw [collectRequestBodies_of_complaint h]
  have hreported : Relates Eq (do record diagnostic; return ∅)
      (collectRequestBodies ⟨document, cut⟩ template method none)
      (fun _ => Spared renumbers diagnostic) fun _ _ => True := by
    rintro s _ rfl
    exact ⟨rfl, .of_record s⟩
  refine hreported.bind fun bodies => ?_
  exact Relates.anyhow (Relates.bind (hspared.collectResponses hrequests.2.2 (fun _ _ => trivial) _)
    fun _ => .pure fun _ _ hs => hs)

/-- **An operation without a response** that is complained of. -/
theorem omits_response (hsame : ∀ other, renumbers other other) {key : String}
    {response : OrReference Response} {earlier later : List (String × OrReference Response)}
    {responses' : Option (SortedMap (OrReference Response))}
    (hresponses : operation.responseEntries = earlier ++ (key, response) :: later)
    (hresponses' : (responses'.map SortedMap.entries).getD [] = earlier ++ later)
    (h : document.responseComplaint? template method (key, response) = some diagnostic) :
    Omits document cut template method renumbers diagnostic operation
      { operation with responses := responses' } := by
  intro shared walked
  rw [Document.operationRequests, List.append_subset, List.append_subset, hresponses] at hrequests
  refine (Relates.refl _).anyhow.bind fun own => ?_
  refine (Relates.refl _).anyhow.bind fun _ => ?_
  refine (Relates.refl _).anyhow.bind fun _ => ?_
  dsimp only
  rw [hresponses', show (operation.responses.map SortedMap.entries).getD [] = _ from hresponses]
  exact (relates_collectResponses hsame hrequests.2.2 h _).bind
    fun _ => .pure fun _ _ hs => hs

end Operation

/-! ## Operations of a path -/

/-- **An operation that lacks an entry** becomes the same endpoint, and the report is lacking. -/
theorem relates_extractOperation (hsame : ∀ other, renumbers other other)
    (homits : Omits document cut template method renumbers diagnostic operation operation') :
    Relates (fun s s' => s' = s ∧ s.index.endpointAt walked.terminal method = none)
      (extractOperation ⟨document, cut⟩ template shared walked method operation)
      (extractOperation ⟨document, cut⟩ template shared walked method operation')
      (fun _ => Spared renumbers diagnostic) fun _ _ => True := by
  rintro _ s ⟨rfl, hfree⟩
  have hspared : Congruence document cut cut fun _ step step' =>
      Related (Spared renumbers diagnostic) step step' := congruence_spared hsame document cut
  have hasked : hasEndpoint walked.terminal method s = .ok false s := by
    show EStateM.Result.ok (s.index.endpointAt _ _).isSome s = _
    rw [hfree]
    rfl
  unfold extractOperation extractOperationWith
  rw [bind_of_ok hasked, bind_of_ok hasked]
  refine ((homits shared walked).bind fun endpoint => ?_) s s rfl
  refine Relates.anyhow (Relates.bind (hspared.changeIndex _) fun found => ?_)
  cases found with
  | error error => exact hspared.recordIndexError template error
  | ok done => exact .pure fun _ _ hs => hs

/-- An operation is a duplicate if its node has an endpoint for its method, whatever it declares. -/
theorem extractOperation_of_taken {context : Context} {state : ExtractionState}
    {endpoint : Endpoint} (h : state.index.endpointAt walked.terminal method = some endpoint) :
    extractOperation context template shared walked method operation state =
      record (.duplicateMethod template method) state := by
  have hasked : hasEndpoint walked.terminal method state = .ok true state := by
    show EStateM.Result.ok (state.index.endpointAt _ _).isSome state = _
    rw [h]
    rfl
  exact bind_of_ok hasked

/-- **Operations after one that lacks an entry**: the method of that one is taken, so that it is a
duplicate wherever it is offered again.

**Proof sketch.** Induction on the operations. The index grows, hence the method stays taken. -/
theorem spared_laterOperations {item : PathItem} {operations : List (HttpMethod × Operation)}
    {s s' t : ExtractionState} (change : Operation → Operation)
    (hsame : ∀ other, renumbers other other) (hpath : (template, item) ∈ document.pathEntries)
    (hoperations : operations ⊆ item.operations) (hspared : Spared renumbers diagnostic s s')
    {endpoint : Endpoint} (htaken : s.index.endpointAt walked.terminal method = some endpoint)
    (h : extractOperations ⟨document, cut⟩ template shared walked operations s = .ok () t) :
    ∃ t', extractOperations ⟨document, cut⟩ template shared walked
        (operations.map fun entry =>
          (entry.1, if entry.1 = method then change entry.2 else entry.2)) s' = .ok () t' ∧
      Spared renumbers diagnostic t t' := by
  have hcongruence : Congruence document cut cut fun _ step step' =>
      Related (Spared renumbers diagnostic) step step' := congruence_spared hsame document cut
  have hcancelled : ∀ {s s'}, Spared renumbers diagnostic s s' →
      s'.resolver.cancelled = s.resolver.cancelled := (respects_spared hsame cut).cancelled
  induction operations generalizing s s' with
  | nil =>
    cases h
    exact ⟨s', rfl, hspared⟩
  | cons entry rest ih =>
    obtain ⟨offered, declared⟩ := entry
    obtain ⟨hfirst, hrest⟩ := List.cons_subset.1 hoperations
    have hrequests := List.Subset.trans (Document.operationRequests_subset hfirst)
      (Document.pathRequests_subset hpath)
    rw [extractOperations_eq] at h
    rcases untilCancelled_cons_iff.1 h with ⟨hstop, rfl⟩ | ⟨hactive, _, s₁, hstep, hothers⟩
    · refine ⟨s', ?_, hspared⟩
      rw [extractOperations_eq]
      exact untilCancelled_of_cancelled _ ((hcancelled hspared).trans hstop)
    · rw [← extractOperations_eq] at hothers
      have htaken' := (growsTo_extractOperation hrequests hstep).endpointAt htaken
      have hturn : ∃ s₁', extractOperation ⟨document, cut⟩ template shared walked offered
          (if offered = method then change declared else declared) s' = .ok () s₁' ∧
            Spared renumbers diagnostic s₁ s₁' := by
        by_cases hmethod : offered = method
        · subst hmethod
          have htaken₁ : s'.index.endpointAt walked.terminal offered = some endpoint := by
            rw [(respects_spared hsame cut).index hspared, htaken]
          rw [extractOperation_of_taken htaken] at hstep
          rw [extractOperation_of_taken htaken₁]
          exact Relates.ok_of_ok (hcongruence.record _) hspared hstep
        · rw [if_neg hmethod]
          exact (hcongruence.extractOperation hrequests shared walked).ok_of_ok hspared hstep
      obtain ⟨s₁', hturn, hspared'⟩ := hturn
      obtain ⟨t', hlast, hspared''⟩ := ih hrest hspared' htaken' hothers
      refine ⟨t', ?_, hspared''⟩
      rw [extractOperations_eq] at hlast ⊢
      exact untilCancelled_cons_iff.2 (.inr ⟨(hcancelled hspared).trans hactive, (), s₁', hturn,
        hlast⟩)

/-- After an operation of a node its method is taken there. -/
theorem taken_of_extractOperation {before after : ExtractionState}
    (hrequests : document.operationRequests template method operation ⊆ document.requests)
    (hterminal : walked.terminal < before.index.parts.length)
    (h : extractOperation ⟨document, cut⟩ template shared walked method operation before =
      .ok () after) :
    ∃ endpoint, after.index.endpointAt walked.terminal method = some endpoint := by
  obtain ⟨hknown, rfl⟩ | ⟨-, endpoint, s, index, hmethod, -, hinsert, rfl⟩ :=
    extractOperation_ok hrequests hterminal h
  · exact Option.isSome_iff_exists.1 hknown
  · exact ⟨endpoint, by rw [PathIndex.endpointAt_insertEndpoint hinsert, if_pos ⟨rfl, hmethod⟩]⟩

/-- **The operations of a path one of which lacks an entry** are extracted in the same way, and the
report is lacking.

**Proof sketch.** The first operation for the method has its turn at a node that has no endpoint for
it. What comes before is the same, and what comes after goes on in the same way. -/
theorem spared_extractOperations {item : PathItem} {change : Operation → Operation}
    {entered left : ExtractionState} (hsame : ∀ other, renumbers other other)
    (hpath : (template, item) ∈ document.pathEntries)
    (hentered : Awaits document template item method shared walked entered)
    (hoperation : item.operation? method = some operation)
    (homits : Omits document cut template method renumbers diagnostic operation (change operation))
    (h : extractOperations ⟨document, cut⟩ template shared walked item.operations entered =
      .ok () left) (hend : left.resolver.cancelled = false) :
    ∃ left', extractOperations ⟨document, cut⟩ template shared walked
        (item.modifyOperation method change).operations entered = .ok () left' ∧
      Spared renumbers diagnostic left left' := by
  obtain ⟨earlier, later, before, after, hsplit, hfirst, hprecedes, hturn, hsucceeds, hawaits⟩ :=
    exists_turn_of_operation hpath hentered hoperation h hend
  have hlater : later ⊆ item.operations := fun _ h => by simp [hsplit, h]
  have hrequests : document.operationRequests template method operation ⊆ document.requests :=
    List.Subset.trans (Document.operationRequests_subset (by simp [hsplit]))
      (Document.pathRequests_subset hpath)
  have hterminal := PathIndex.lt_of_descend before.index.root_lt hawaits.follows.terminal
  have hactive : before.resolver.cancelled = false :=
    ((congruence_grows document cut before).extractOperation hrequests shared walked _ _ _
      (.refl _) hturn).not_cancelled
        ((grows_extractOperations hpath hlater hsucceeds).not_cancelled hend)
  obtain ⟨after', hturn', hspared⟩ := (relates_extractOperation hsame homits).ok_of_ok
    ⟨rfl, hawaits.free⟩ hturn
  obtain ⟨endpoint, htaken⟩ := taken_of_extractOperation hrequests hterminal hturn
  obtain ⟨left', hsucceeds', hspared'⟩ :=
    spared_laterOperations change hsame hpath hlater hspared htaken hsucceeds
  refine ⟨left', ?_, hspared'⟩
  rw [PathItem.operations_modifyOperation_of_first item method change hsplit hfirst]
  rw [extractOperations_eq] at hprecedes hsucceeds' ⊢
  exact untilCancelled_append_iff.2 ⟨before, hprecedes,
    untilCancelled_cons_iff.2 (.inr ⟨hactive, (), after', hturn', hsucceeds'⟩)⟩

/-! ## Paths -/

section Paths

variable {item : PathItem} {before after : ExtractionState}

/-- The node of an acceptable template awaits an endpoint for a method, unless that is taken. -/
theorem awaits_of_walk {done : List (String × PathItem)} {collected entered : ExtractionState}
    (hpath : (template, item) ∈ document.pathEntries) (hindexed : document.Indexed done before)
    (hactive : before.resolver.cancelled = false) (hbranching : before.index.Branching)
    (hfree : taken done template method = false)
    (hshared : collectParameters ⟨document, cut⟩ template 0 item.parameters ∅ before =
      .ok shared collected)
    (hwalk : walkTemplate template collected = .ok (some walked) entered) :
    Awaits document template item method shared walked entered := by
  have hrequests := (List.append_subset.1 (Document.pathRequests_subset hpath)).1
  have hentered := entered_of_walk hpath hindexed.spans.proper hindexed.coherent hshared hwalk
  obtain ⟨-, hfind, -, hinformed⟩ := hentered.accepted walked rfl
  have hbuilds : before.Builds collected := ((building_builds (.any _) before).collectParameters
    hrequests (fun _ _ => trivial) 0 ∅ before (.refl before)).answer hshared
  have harrives : Arrives template [] (templateSegments template) collected entered (some walked) :=
    follows_walkSegments (hbuilds.outline.proper hindexed.spans.proper) (.start _) hwalk
  have hbranching' : entered.index.Branching :=
    ((growsTo_collectParameters hrequests hshared).trans (growsTo_walkTemplate hwalk)).branching
      hbranching
  refine ⟨hentered.laid.proper, harrives.2.2, hinformed, ?_⟩
  rw [← Option.isNone_iff_eq_none, ← Option.not_isSome, isSome_endpointAt_eq_taken hindexed hactive
    hentered.laid.toExtends (hentered.laid.endpointAt _ _) hbranching' hfind, hfree, Bool.not_false]

/-- **A path one of whose operations lacks an entry** is extracted in the same way, and the report
is lacking, if that operation becomes an endpoint. -/
theorem spared_of_operation {done : List (String × PathItem)} {change : Operation → Operation}
    (hsame : ∀ other, renumbers other other) (hpath : (template, item) ∈ document.pathEntries)
    (hindexed : document.Indexed done before) (hactive : before.resolver.cancelled = false)
    (hbranching : before.index.Branching) (hacceptable : Acceptable template)
    (hfree : taken done template method = false)
    (hoperation : item.operation? method = some operation)
    (homits : Omits document cut template method renumbers diagnostic operation (change operation))
    (h : extractPath ⟨document, cut⟩ template item before = .ok () after)
    (hend : after.resolver.cancelled = false) :
    ∃ after', extractPath ⟨document, cut⟩ template (item.modifyOperation method change) before =
        .ok () after' ∧ Spared renumbers diagnostic after after' := by
  obtain ⟨shared, collected, hshared, hrest⟩ := bind_eq_ok_iff.1 h
  obtain ⟨answer, entered, hwalk, hlast⟩ := bind_eq_ok_iff.1 hrest
  cases answer with
  | none =>
    exact absurd hacceptable ((entered_of_walk hpath hindexed.spans.proper hindexed.coherent hshared
      hwalk).refused rfl).1
  | some walked =>
    have hentered : Awaits document template item method shared walked entered :=
      awaits_of_walk hpath hindexed hactive hbranching hfree hshared hwalk
    obtain ⟨after', hlast', hspared⟩ :=
      spared_extractOperations hsame hpath hentered hoperation homits hlast hend
    refine ⟨after', ?_, hspared⟩
    unfold extractPath extractPathWith
    rw [PathItem.parameters_modifyOperation, bind_of_ok hshared, bind_of_ok hwalk]
    exact hlast'

/-- **A path without a shared parameter** that is complained of is extracted in the same way, and
the complaint is lacking. -/
theorem relates_extractPath {entry : OrReference Parameter}
    {earlier later : List (OrReference Parameter)}
    (hpath : (template, item) ∈ document.pathEntries)
    (hparameters : item.parameters = earlier ++ entry :: later)
    (h : document.parameterComplaint? template (entry, earlier.length) = some diagnostic) :
    Relates Eq (extractPath ⟨document, cut⟩ template item)
      (extractPath ⟨document, cut⟩ template { item with parameters := earlier ++ later })
      (fun _ => Spared (Diagnostic.Renumbered template) diagnostic) fun _ _ => True := by
  have hspared : Congruence document cut cut fun _ step step' =>
      Related (Spared (Diagnostic.Renumbered template) diagnostic) step step' :=
    congruence_spared .same document cut
  rw [← Nat.zero_add earlier.length] at h
  unfold extractPath extractPathWith
  rw [hparameters]
  refine (relates_collectParameters earlier later h _).bind fun shared => ?_
  refine Relates.anyhow (Relates.bind (hspared.walkSegments template _ _) fun answer => ?_)
  cases answer with
  | none => exact .pure fun _ _ hs => hs
  | some walked =>
    exact hspared.extractOperations (fun _ hentry =>
      List.Subset.trans (Document.operationRequests_subset hentry)
        (Document.pathRequests_subset hpath)) shared walked

/-- **What is lacking after a path is lacking after all of them.** -/
theorem spared_extractPaths {earlier later : List (String × PathItem)} {item' : PathItem}
    {state left' passed : ExtractionState} (hsame : ∀ other, renumbers other other)
    (hlater : later ⊆ document.pathEntries)
    (hprecedes : extractPaths ⟨document, cut⟩ earlier state = .ok () before)
    (hactive : before.resolver.cancelled = false)
    (hturn : extractPath ⟨document, cut⟩ template item' before = .ok () left')
    (hspared : Spared renumbers diagnostic after left')
    (hremains : extractPaths ⟨document, cut⟩ later after = .ok () passed) :
    ∃ passed', extractPaths ⟨document, cut⟩ (earlier ++ (template, item') :: later) state =
        .ok () passed' ∧ Spared renumbers diagnostic passed passed' := by
  have hcongruence : Congruence document cut cut fun _ step step' =>
      Related (Spared renumbers diagnostic) step step' := congruence_spared hsame document cut
  obtain ⟨passed', hremains', hspared'⟩ :=
    Relates.ok_of_ok (hcongruence.extractPathsOf hlater) hspared hremains
  refine ⟨passed', ?_, hspared'⟩
  rw [extractPaths_eq] at hprecedes hremains' ⊢
  exact untilCancelled_append_iff.2 ⟨before, hprecedes,
    untilCancelled_cons_iff.2 (.inr ⟨hactive, (), left', hturn, hremains'⟩)⟩

end Paths

end Extraction

end ApiCatalog
