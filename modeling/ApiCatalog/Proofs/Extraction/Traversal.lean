import ApiCatalog.Analysis
import ApiCatalog.Proofs.Document.Declarations

set_option autoImplicit false

/-!
# Traversing the paths of a document

The pass over paths is put together from a few basic steps. What relates the basic steps of two
extractions of a document, and sequences of related steps, relates the whole passes. The two
extractions may differ in where they are cancelled. If they do not, a relation that only looks at
one of them is a property of steps, so that properties of the pass are proved in the same way.

## Main definitions

* `Extraction.Sequential`: a relation of steps that sequences respect.
* `Extraction.Collecting`: one that the basic steps of collecting the parts of an endpoint respect.
* `Extraction.Building`: one that the basic steps of building an endpoint respect as well.
* `Extraction.Congruence`: one that all basic steps of the pass over paths respect.

## Main results

* `Extraction.Building.buildEndpoint`: the buildings of an endpoint are related.
* `Extraction.Sequential.extractComponents`: the passes over components are related if the
  resolutions of the components are.
* `Extraction.Congruence.extractPaths`: the passes over the paths of a document are related.
* `Extraction.Congruence.passes`: so are all passes if those over components are.
-/

namespace ApiCatalog

/-! ## What ends an extraction, and what is reported of templates -/

namespace Document

variable (document : Document)

/-- Looking up one of some parameters ends the extraction. -/
def ParametersAbort (entries : List (OrReference Parameter)) (abort : Abort) : Prop :=
  ∃ entry ∈ entries, document.parameter entry = .error abort

/-- Looking up the request body of an operation ends the extraction. -/
def BodyAborts (operation : Operation) (abort : Abort) : Prop :=
  ∃ body, operation.requestBody = some body ∧ document.requestBody body = .error abort

/-- Looking up one of some responses ends the extraction. -/
def ResponsesAbort (entries : List (String × OrReference Response)) (abort : Abort) : Prop :=
  ∃ entry ∈ entries, document.response entry.2 = .error abort

/-- Looking up something that an operation refers to ends the extraction. -/
def OperationAborts (operation : Operation) (abort : Abort) : Prop :=
  document.ParametersAbort operation.parameters abort ∨ document.BodyAborts operation abort ∨
    document.ResponsesAbort operation.responseEntries abort

end Document

/-- The template that a diagnostic reports for parameters that repeat. -/
def Diagnostic.repeated? : Diagnostic → Option String
  | .duplicateParameterSegment path _ => some path
  | _ => none

/-- Whether a diagnostic is about a part of an operation or about a schema, and not about the place
of a template or of an operation in the index. -/
def Diagnostic.isOfPart : Diagnostic → Bool
  | .segmentKindMismatch .. | .duplicateParameterSegment .. | .duplicateMethod ..
  | .unsupportedMethod .. => false
  | .unboundPathParameter .. | .invalidStatusKey .. | .unnamedParameter ..
  | .parameterWithoutSchema .. | .missingType .. | .booleanSchema .. | .missingArrayItems ..
  | .unresolvedReference .. => true

/-- What is about a part reports no template. -/
theorem Diagnostic.repeated?_eq_none {diagnostic : Diagnostic} (h : diagnostic.isOfPart = true) :
    diagnostic.repeated? = none := by
  cases diagnostic <;> first | rfl | cases h

/-! ## Relations of steps -/

namespace Extraction

/-- A value that may end the extraction, followed by a step that depends on it. -/
theorem ofExcept_bind {α β : Type} (result : Except Abort α) (f : α → Extraction β) :
    (ofExcept result >>= f) =
      match result with
      | .ok a => f a
      | .error abort => ofExcept (.error abort) := by
  cases result <;> rfl

/-- A relation of steps of two extractions that holds between sequences of steps that are related
whatever the first ones answer. -/
structure Sequential (Rel : (α : Type) → Extraction α → Extraction α → Prop) : Prop where
  pure : ∀ {α : Type} (a : α), Rel α (pure a) (pure a)
  bind : ∀ {α β : Type} {x x' : Extraction α} {f f' : α → Extraction β}, Rel α x x' →
    (∀ a, Rel β (f a) (f' a)) → Rel β (x >>= f) (x' >>= f')
  isCancelled : Rel Bool isCancelled isCancelled

/-- Steps that depend on a condition. -/
theorem related_ite {Rel : (α : Type) → Extraction α → Extraction α → Prop} {α : Type}
    {x x' y y' : Extraction α} {condition : Prop} [Decidable condition] (hx : Rel α x x')
    (hy : Rel α y y') :
    Rel α (if condition then x else y) (if condition then x' else y') := by
  by_cases hcondition : condition
  · rw [if_pos hcondition, if_pos hcondition]
    exact hx
  · rw [if_neg hcondition, if_neg hcondition]
    exact hy

/-- **The passes over components are related** if the resolutions of the components are. -/
theorem Sequential.extractComponents {Rel : (α : Type) → Extraction α → Extraction α → Prop}
    (h : Sequential Rel) (context context' : Context) {components : List (String × Node)}
    (hcomponents : ∀ entry ∈ components, Rel (Option Resolution)
      (ofResolver (resolveComponent context entry.1 entry.2))
      (ofResolver (resolveComponent context' entry.1 entry.2))) :
    Rel Unit (extractComponents context components) (extractComponents context' components) := by
  induction components with
  | nil => exact h.pure _
  | cons entry rest ih =>
    refine h.bind h.isCancelled fun _ => related_ite (h.pure _) ?_
    refine h.bind (hcomponents entry List.mem_cons_self) fun _ => ?_
    exact ih fun other hother => hcomponents other (List.mem_cons_of_mem _ hother)

/-- A relation of steps of two extractions of a document: it holds between the basic steps of
collecting the parts of an endpoint, and between sequences of related steps. Collecting parts ends
the extractions only where that is permitted, and reports only what is wrong with parts. -/
structure Collecting (document : Document) (cut cut' : Option Nat) (Permitted : Abort → Prop)
    (Rel : (α : Type) → Extraction α → Extraction α → Prop) : Prop extends Sequential Rel where
  abort : ∀ {α : Type} {abort : Abort}, Permitted abort →
    Rel α (ofExcept (.error abort)) (ofExcept (.error abort))
  report : ∀ {diagnostic : Diagnostic}, diagnostic.isOfPart = true →
    Rel Unit (record diagnostic) (record diagnostic)
  /-- Schemas are resolved under names only if the document asks for that. -/
  bound : ∀ {name node}, (name, node) ∈ document.requests →
    Rel Unit (resolveBound ⟨document, cut⟩ node name) (resolveBound ⟨document, cut'⟩ node name)

/-- A relation of steps of two extractions of a document: it holds between the basic steps of
building an endpoint, which are those of collecting its parts and the bindings of nodes, and between
sequences of related steps. -/
structure Building (document : Document) (cut cut' : Option Nat) (Permitted : Abort → Prop)
    (Rel : (α : Type) → Extraction α → Extraction α → Prop) : Prop
    extends Collecting document cut cut' Permitted Rel where
  bindNode : ∀ (id : Nat) (schema : ModelName),
    Rel (Except PathIndexError ModelName) (changeIndex (·.bind id schema))
      (changeIndex (·.bind id schema))

/-- A relation of steps of two extractions of a document: it holds between the basic steps of the
pass over paths, and between sequences of related steps. -/
structure Congruence (document : Document) (cut cut' : Option Nat)
    (Rel : (α : Type) → Extraction α → Extraction α → Prop) : Prop
    extends Building document cut cut' (fun _ => True) Rel where
  hasEndpoint : ∀ id method, Rel Bool (hasEndpoint id method) (hasEndpoint id method)
  ofExcept : ∀ {α : Type} (result : Except Abort α), Rel α (ofExcept result) (ofExcept result)
  record : ∀ diagnostic, Rel Unit (record diagnostic) (record diagnostic)
  changeIndex : ∀ {α : Type} (change : PathIndex → Except PathIndexError (α × PathIndex)),
    Rel (Except PathIndexError α) (changeIndex change) (changeIndex change)
  abort := fun _ => ofExcept _
  report := fun _ => record _
  bindNode := fun _ _ => changeIndex _

namespace Collecting

variable {document : Document} {cut cut' : Option Nat} {Permitted : Abort → Prop}
  {Rel : (α : Type) → Extraction α → Extraction α → Prop}

variable (h : Collecting document cut cut' Permitted Rel)

include h

/-- Steps that depend on a value, if there is one. -/
theorem ofExceptBind {α β : Type} {result : Except Abort α} {f f' : α → Extraction β}
    (hpermitted : ∀ abort, result = .error abort → Permitted abort)
    (hf : ∀ a, result = .ok a → Rel β (f a) (f' a)) :
    Rel β (Extraction.ofExcept result >>= f) (Extraction.ofExcept result >>= f') := by
  rw [ofExcept_bind, ofExcept_bind]
  cases result with
  | error abort => exact h.abort (hpermitted abort rfl)
  | ok a => exact hf a rfl

/-! ## Parameters -/

/-- A parameter is looked up, and taken up or reported. -/
theorem collectParameter {template : String} {entry : OrReference Parameter}
    (hrequests : document.parameterRequests template [entry] ⊆ document.requests)
    (hpermitted : ∀ abort, document.parameter entry = .error abort → Permitted abort) (index : Nat)
    (collected : ParameterMap) :
    Rel ParameterMap (collectParameter ⟨document, cut⟩ template index entry collected)
      (collectParameter ⟨document, cut'⟩ template index entry collected) := by
  refine h.ofExceptBind hpermitted fun result hresult => ?_
  cases result with
  | error error => exact h.bind (h.report rfl) fun _ => h.pure _
  | ok found =>
    show Rel ParameterMap (addParameter ⟨document, cut⟩ template index found collected)
      (addParameter ⟨document, cut'⟩ template index found collected)
    unfold addParameter
    by_cases hblank : Text.isBlankText found.name = true
    · rw [if_pos hblank, if_pos hblank]
      exact h.bind (h.report rfl) fun _ => h.pure _
    · rw [if_neg hblank, if_neg hblank]
      cases hnode : found.schema? with
      | none => exact h.bind (h.report rfl) fun _ => h.pure _
      | some node =>
        have hmem : (Naming.pathParameter template found.name, node) ∈
            document.parameterRequests template [entry] :=
          Document.mem_parameterRequests hresult (by simpa using hblank) hnode
        exact h.bind (h.bound (hrequests hmem)) fun _ => h.pure _

/-- Parameters are taken up. -/
theorem collectParameters {template : String} {entries : List (OrReference Parameter)}
    (hrequests : document.parameterRequests template entries ⊆ document.requests)
    (hpermitted : ∀ abort, document.ParametersAbort entries abort → Permitted abort) (index : Nat)
    (collected : ParameterMap) :
    Rel ParameterMap (collectParameters ⟨document, cut⟩ template index entries collected)
      (collectParameters ⟨document, cut'⟩ template index entries collected) := by
  induction entries generalizing index collected with
  | nil => exact h.pure _
  | cons entry rest ih =>
    rw [Document.parameterRequests_cons, List.append_subset] at hrequests
    obtain ⟨hfirst, hrest⟩ := List.forall_mem_cons.1 fun other hother abort hfound =>
      hpermitted abort ⟨other, hother, hfound⟩
    refine h.bind h.isCancelled fun _ => related_ite (h.pure _) ?_
    refine h.bind (h.collectParameter hrequests.1 hfirst index collected) fun _ => ?_
    exact ih hrequests.2 (fun abort ⟨other, hother, hfound⟩ => hrest other hother abort hfound) _ _

/-! ## Request bodies and responses -/

/-- The schemas of media types are resolved. -/
theorem collectContent {nameOf : String → ModelName} {content : List (String × MediaType)}
    (hrequests : contentRequests nameOf content ⊆ document.requests)
    (collected : OrderedMap String ModelName) :
    Rel (OrderedMap String ModelName) (collectContent ⟨document, cut⟩ nameOf content collected)
      (collectContent ⟨document, cut'⟩ nameOf content collected) := by
  induction content generalizing collected with
  | nil => exact h.pure _
  | cons entry rest ih =>
    obtain ⟨mediaType, media⟩ := entry
    rw [Document.contentRequests_cons, List.append_subset] at hrequests
    unfold Extraction.collectContent
    cases hnode : media.schema with
    | none => exact ih hrequests.2 _
    | some node =>
      have hmem : (nameOf mediaType, node) ∈ document.requests :=
        hrequests.1 (by simp [hnode])
      exact h.bind (h.bound hmem) fun _ => ih hrequests.2 _

/-- Request bodies are resolved. -/
theorem collectRequestBodies {template : String} {method : HttpMethod} {operation : Operation}
    (hrequests : contentRequests (Naming.requestBody template method)
      (document.bodyContent operation) ⊆ document.requests)
    (hpermitted : ∀ abort, document.BodyAborts operation abort → Permitted abort) :
    Rel (OrderedMap String ModelName)
      (collectRequestBodies ⟨document, cut⟩ template method operation.requestBody)
      (collectRequestBodies ⟨document, cut'⟩ template method operation.requestBody) := by
  cases hbody : operation.requestBody with
  | none => exact h.pure _
  | some body =>
    refine h.ofExceptBind (fun abort hfound => hpermitted abort ⟨body, hbody, hfound⟩)
      fun result hresult => ?_
    cases result with
    | error error => exact h.bind (h.report rfl) fun _ => h.pure _
    | ok found =>
      rw [Document.bodyContent_of_found hbody hresult] at hrequests
      exact h.collectContent hrequests _

/-- A response is taken up or reported. -/
theorem collectResponse {template : String} {method : HttpMethod} {key : String}
    {response : OrReference Response}
    (hrequests : document.responseRequests template method [(key, response)] ⊆ document.requests)
    (hpermitted : ∀ abort, document.response response = .error abort → Permitted abort)
    (collected : ResponseMap) :
    Rel ResponseMap (collectResponse ⟨document, cut⟩ template method key response collected)
      (collectResponse ⟨document, cut'⟩ template method key response collected) := by
  unfold Extraction.collectResponse
  cases hkey : StatusKey.ofText? key with
  | none => exact h.bind (h.report rfl) fun _ => h.pure _
  | some status =>
    refine h.ofExceptBind hpermitted fun result hresult => ?_
    cases result with
    | error error => exact h.bind (h.report rfl) fun _ => h.pure _
    | ok found =>
      rw [Document.responseRequests_singleton hkey hresult] at hrequests
      exact h.bind (h.collectContent hrequests _) fun _ => h.pure _

/-- Responses are taken up. -/
theorem collectResponses {template : String} {method : HttpMethod}
    {responses : List (String × OrReference Response)}
    (hrequests : document.responseRequests template method responses ⊆ document.requests)
    (hpermitted : ∀ abort, document.ResponsesAbort responses abort → Permitted abort)
    (collected : ResponseMap) :
    Rel ResponseMap (collectResponses ⟨document, cut⟩ template method responses collected)
      (collectResponses ⟨document, cut'⟩ template method responses collected) := by
  induction responses generalizing collected with
  | nil => exact h.pure _
  | cons entry rest ih =>
    obtain ⟨key, response⟩ := entry
    rw [Document.responseRequests_cons, List.append_subset] at hrequests
    obtain ⟨hfirst, hrest⟩ := List.forall_mem_cons.1 fun other hother abort hfound =>
      hpermitted abort ⟨other, hother, hfound⟩
    refine h.bind h.isCancelled fun _ => related_ite (h.pure _) ?_
    refine h.bind (h.collectResponse hrequests.1 hfirst collected) fun _ => ?_
    exact ih hrequests.2 (fun abort ⟨other, hother, hfound⟩ => hrest other hother abort hfound) _

end Collecting

namespace Building

variable {document : Document} {cut cut' : Option Nat} {Permitted : Abort → Prop}
  {Rel : (α : Type) → Extraction α → Extraction α → Prop}

variable (h : Building document cut cut' Permitted Rel)

include h

/-! ## Endpoints -/

/-- A path parameter is bound or reported. -/
theorem bindParameter (template : String) (method : HttpMethod) (walked : WalkedPath)
    (parameter : EndpointParameter) :
    Rel Unit (bindParameter template method walked parameter)
      (bindParameter template method walked parameter) := by
  unfold Extraction.bindParameter bindParameterWith
  cases walked.parameters.find? parameter.name with
  | none => exact h.report rfl
  | some id =>
    refine h.bind (h.bindNode _ _) fun found => ?_
    cases found with
    | error error => exact h.report rfl
    | ok done => exact h.pure _

/-- Path parameters are bound. -/
theorem bindParameters (template : String) (method : HttpMethod) (walked : WalkedPath)
    (parameters : List EndpointParameter) :
    Rel Unit (bindParameters template method walked parameters)
      (bindParameters template method walked parameters) := by
  induction parameters with
  | nil => exact h.pure _
  | cons parameter rest ih =>
    rw [Extraction.bindParameters]
    exact related_ite (h.bind (h.bindParameter template method walked parameter) fun _ => ih)
      (h.bind (h.pure ()) fun _ => ih)

/-- An endpoint is built from its operation. -/
theorem buildEndpoint {template : String} {method : HttpMethod} {operation : Operation}
    (hrequests : document.operationRequests template method operation ⊆ document.requests)
    (hpermitted : ∀ abort, document.OperationAborts operation abort → Permitted abort)
    (shared : ParameterMap) (walked : WalkedPath) :
    Rel Endpoint (buildEndpoint ⟨document, cut⟩ template method operation shared walked)
      (buildEndpoint ⟨document, cut'⟩ template method operation shared walked) := by
  rw [Document.operationRequests, List.append_subset, List.append_subset] at hrequests
  obtain ⟨hparameters, hbodies, hresponses⟩ := hrequests
  refine h.bind (h.collectParameters hparameters (fun _ hab => hpermitted _ (.inl hab)) _ _)
    fun own => ?_
  refine h.bind (h.bindParameters template method walked _) fun _ => ?_
  refine h.bind (h.collectRequestBodies hbodies fun _ hab => hpermitted _ (.inr (.inl hab)))
    fun bodies => ?_
  exact h.bind (h.collectResponses hresponses (fun _ hab => hpermitted _ (.inr (.inr hab))) _)
    fun _ => h.pure _

end Building

namespace Congruence

variable {document : Document} {cut cut' : Option Nat}
  {Rel : (α : Type) → Extraction α → Extraction α → Prop}

variable (h : Congruence document cut cut' Rel)

include h

/-! ## Templates -/

/-- Reports of a refused template. -/
theorem recordIndexError (template : String) (error : PathIndexError) :
    Rel Unit (recordIndexError template error) (recordIndexError template error) :=
  h.bind (h.ofExcept _) fun _ => h.record _

/-- Segments are laid into the index. -/
theorem walkSegments (template : String) (segments : List String) (walked : WalkedPath) :
    Rel (Option WalkedPath) (walkSegments template segments walked)
      (walkSegments template segments walked) := by
  have hstop : ∀ error, Rel (Option WalkedPath)
      (Extraction.recordIndexError template error >>= fun _ => Pure.pure none)
      (Extraction.recordIndexError template error >>= fun _ => Pure.pure none) :=
    fun error => h.bind (h.recordIndexError template error) fun _ => h.pure _
  induction segments generalizing walked with
  | nil => exact h.pure _
  | cons segment rest ih =>
    refine related_ite (related_ite (h.bind (h.record _) fun _ => h.pure _) ?_) ?_
    all_goals
      refine h.bind (h.changeIndex _) fun found => ?_
      cases found with
      | error error => exact hstop error
      | ok id => exact ih _

/-! ## Passes -/

/-- An operation becomes an endpoint. -/
theorem extractOperation {template : String} {method : HttpMethod} {operation : Operation}
    (hrequests : document.operationRequests template method operation ⊆ document.requests)
    (shared : ParameterMap) (walked : WalkedPath) :
    Rel Unit (extractOperation ⟨document, cut⟩ template shared walked method operation)
      (extractOperation ⟨document, cut'⟩ template shared walked method operation) := by
  refine h.bind (h.hasEndpoint _ _) fun _ => related_ite (h.record _) ?_
  refine h.bind (h.buildEndpoint hrequests (fun _ _ => trivial) shared walked) fun _ => ?_
  refine h.bind (h.changeIndex _) fun found => ?_
  cases found with
  | error error => exact h.recordIndexError template error
  | ok done => exact h.pure _

/-- Operations become endpoints. -/
theorem extractOperations {template : String} {operations : List (HttpMethod × Operation)}
    (hrequests : ∀ entry ∈ operations,
      document.operationRequests template entry.1 entry.2 ⊆ document.requests)
    (shared : ParameterMap) (walked : WalkedPath) :
    Rel Unit (extractOperations ⟨document, cut⟩ template shared walked operations)
      (extractOperations ⟨document, cut'⟩ template shared walked operations) := by
  induction operations with
  | nil => exact h.pure _
  | cons entry rest ih =>
    rw [extractOperations_cons, extractOperations_cons]
    refine h.bind h.isCancelled fun _ => related_ite (h.pure _) ?_
    refine h.bind (h.extractOperation (hrequests _ List.mem_cons_self) shared walked) fun _ => ?_
    exact ih fun other hother => hrequests other (List.mem_cons_of_mem _ hother)

/-- The operations of a template are extracted. -/
theorem extractPath {template : String} {item : PathItem}
    (hrequests : document.pathRequests template item ⊆ document.requests) :
    Rel Unit (extractPath ⟨document, cut⟩ template item)
      (extractPath ⟨document, cut'⟩ template item) := by
  have hoperations : ∀ entry ∈ item.operations,
      document.operationRequests template entry.1 entry.2 ⊆ document.requests :=
    fun _ hentry => List.Subset.trans (Document.operationRequests_subset hentry) hrequests
  rw [Document.pathRequests, List.append_subset] at hrequests
  refine h.bind (h.collectParameters hrequests.1 (fun _ _ => trivial) _ _) fun shared => ?_
  refine h.bind (h.walkSegments template _ _) fun walked => ?_
  cases walked with
  | none => exact h.pure _
  | some walked => exact h.extractOperations hoperations shared walked

/-- The passes over some paths of a document are related. -/
theorem extractPathsOf {paths : List (String × PathItem)} (hpaths : paths ⊆ document.pathEntries) :
    Rel Unit (extractPaths ⟨document, cut⟩ paths) (extractPaths ⟨document, cut'⟩ paths) := by
  induction paths with
  | nil => exact h.pure _
  | cons entry rest ih =>
    obtain ⟨template, item⟩ := entry
    obtain ⟨hfirst, hrest⟩ := List.cons_subset.1 hpaths
    refine h.bind h.isCancelled fun _ => related_ite (h.pure _) ?_
    exact h.bind (h.extractPath (Document.pathRequests_subset hfirst)) fun _ => ih hrest

/-- **The passes over the paths of a document are related.** -/
theorem extractPaths :
    Rel Unit (extractPaths ⟨document, cut⟩ document.pathEntries)
      (extractPaths ⟨document, cut'⟩ document.pathEntries) :=
  h.extractPathsOf (List.Subset.refl _)

/-- The passes over a document are related if those over its components are. -/
theorem passes (options : Options)
    (hcomponents : Rel Unit (extractComponents ⟨document, cut⟩ document.schemas.entries)
      (extractComponents ⟨document, cut'⟩ document.schemas.entries)) :
    Rel Unit (passes document { options with cancelAt := cut })
      (passes document { options with cancelAt := cut' }) :=
  h.bind h.extractPaths fun _ => related_ite hcomponents (h.pure ())

end Congruence

end Extraction

end ApiCatalog
