import ApiCatalog.Proofs.Extraction.Traversal
import ApiCatalog.Proofs.Resolution.Relations

set_option autoImplicit false

/-!
# Related steps of an extraction

Extractions are compared in the way in which resolutions are. A relation of states that resolutions,
reports and bindings respect is respected by the building of an endpoint and by the pass over
components. What an extraction does depends on the paths that it is given, and beside them on the
components of the document only.

## Main definitions

* `Extraction.Respects`: a relation of states that the basic steps of building an endpoint respect.

## Main results

* `Extraction.Respects.building`, `Extraction.Respects.extractComponents`: what the basic steps
  respect.
* `Extraction.extractPaths_congr`, `Extraction.extractComponents_congr`: passes over documents with
  the same components.
-/

namespace ApiCatalog

/-- What is reported of schemas is about a part. -/
theorem Diagnostic.isOfPart_of_kind {diagnostic : Diagnostic}
    (h : diagnostic.kind = .schemaResolution) : diagnostic.isOfPart = true := by
  cases diagnostic <;> first | rfl | cases h

/-- A state of an extraction whose resolver has come to another state. -/
def ExtractionState.withResolver (state : ExtractionState) (resolver : ResolverState) :
    ExtractionState :=
  { state with resolver }

namespace Extraction

/-- A relation of states that the basic steps of building an endpoint respect: it lets the states be
told apart by nothing that these steps ask for, and goes on holding after whatever they do. -/
structure Respects (cut cut' : Option Nat) (R : ExtractionState → ExtractionState → Prop) :
    Prop where
  cancelled : ∀ {s s'}, R s s' → s'.resolver.cancelled = s.resolver.cancelled
  contains : ∀ {s s'}, R s s' → ∀ name,
    s'.resolver.repository.contains name = s.resolver.repository.contains name
  find? : ∀ {s s'}, R s s' → ∀ name, s'.resolver.memo.find? name = s.resolver.memo.find? name
  index : ∀ {s s'}, R s s' → s'.index = s.index
  register : ∀ {s s'}, R s s' → ∀ model,
    R (s.withResolver (s.resolver.register cut model))
      (s'.withResolver (s'.resolver.register cut' model))
  record : ∀ {s s'}, R s s' → ∀ diagnostic : Diagnostic, diagnostic.isOfPart = true →
    R (s.withResolver (s.resolver.record diagnostic))
      (s'.withResolver (s'.resolver.record diagnostic))
  memoise : ∀ {s s'}, R s s' → ∀ name resolution,
    R (s.withResolver (s.resolver.memoise name resolution))
      (s'.withResolver (s'.resolver.memoise name resolution))
  bindName : ∀ {s s'}, R s s' → ∀ name references,
    R { s with bindings := s.bindings.insertNew name references }
      { s' with bindings := s'.bindings.insertNew name references }
  bindNode : ∀ {s s'}, R s s' → ∀ {id schema bound index},
    s.index.bind id schema = .ok (bound, index) → R { s with index } { s' with index }

namespace Respects

variable {cut cut' : Option Nat} {R : ExtractionState → ExtractionState → Prop} {α : Type}
  {document : Document}

variable (h : Respects cut cut' R)

include h

/-- While a resolution is at work, nothing but the state of the resolver changes. -/
theorem resolver {s s' : ExtractionState} :
    Resolver.Respects cut cut' fun r r' => R (s.withResolver r) (s'.withResolver r') where
  cancelled hr := h.cancelled hr
  contains hr := h.contains hr
  find? hr := h.find? hr
  register hr := h.register hr
  record hr diagnostic hkind := h.record hr diagnostic (Diagnostic.isOfPart_of_kind hkind)
  memoise hr := h.memoise hr

/-- Resolutions that do alike, as steps of an extraction. -/
theorem ofResolver {step step' : Resolver α}
    (hstep : ∀ {Q : ResolverState → ResolverState → Prop}, Resolver.Respects cut cut' Q →
      Related Q step step') : Related R (ofResolver step) (ofResolver step') := by
  intro s s' hs
  have hresolver : Resolver.Respects cut cut' fun r r' =>
      R (s.withResolver r) (s'.withResolver r') := h.resolver
  have hsteps := hstep hresolver s.resolver s'.resolver hs
  unfold Extraction.ofResolver
  cases hrun : step s.resolver <;> cases hrun' : step' s'.resolver <;>
    rw [hrun, hrun'] at hsteps <;> exact hsteps

/-- A schema of an endpoint. -/
theorem resolveBound (node : Node) (name : ModelName) :
    Related R (resolveBound ⟨document, cut⟩ node name)
      (resolveBound ⟨document, cut'⟩ node name) := by
  refine (h.ofResolver fun hQ => hQ.resolve rfl node name).bind fun resolution => ?_
  refine .ite (fun _ => ?_) fun _ => .pure fun _ _ hs => hs
  exact fun s s' hs => ⟨rfl, h.bindName hs name resolution.references⟩

/-- Nodes of the index are bound alike. -/
theorem boundNode (id : Nat) (schema : ModelName) :
    Related R (changeIndex (·.bind id schema)) (changeIndex (·.bind id schema)) := by
  intro s s' hs
  rw [changeIndex_apply, changeIndex_apply, h.index hs]
  cases hbind : s.index.bind id schema with
  | error error => exact ⟨rfl, hs⟩
  | ok result => exact ⟨rfl, h.bindNode hs hbind⟩

/-- **Endpoints are built alike.** -/
theorem building :
    Building document cut cut' (fun _ => True) fun _ step step' => Related R step step' where
  pure _ := .pure fun _ _ hs => hs
  bind hx hf := Relates.bind hx hf
  isCancelled := h.ofResolver fun hQ => hQ.isCancelled
  abort _ := fun _ _ hs => ⟨rfl, hs⟩
  report hpart := fun _ _ hs => ⟨rfl, h.record hs _ hpart⟩
  bound _ := h.resolveBound _ _
  bindNode := h.boundNode

/-- **Components are resolved alike.** -/
theorem extractComponents (components : List (String × Node)) :
    Related R (extractComponents ⟨document, cut⟩ components)
      (extractComponents ⟨document, cut'⟩ components) := by
  have hbuilding : Building document cut cut' (fun _ => True) fun _ step step' =>
      Related R step step' := h.building
  exact hbuilding.extractComponents _ _ fun entry _ =>
    h.ofResolver fun hQ => hQ.resolveComponent rfl entry.1 entry.2

end Respects

/-! ## Documents with the same components -/

section Components

variable {document document' : Document} (hsame : document'.components = document.components)
  (cut : Option Nat)

include hsame

/-- The schemas of endpoints are resolved in the same way. -/
theorem resolveBound_congr : resolveBound ⟨document', cut⟩ = resolveBound ⟨document, cut⟩ := by
  funext node name
  rw [resolveBound, resolve_congr hsame, resolveBound]

/-- The same parameters are found. -/
theorem parameter_congr : document'.parameter = document.parameter := by
  funext entry
  simp only [Document.parameter, Document.allComponents, hsame]

/-- Parameters are taken up in the same way. -/
theorem collectParameter_congr (template : String) (index : Nat) (entry : OrReference Parameter)
    (collected : ParameterMap) :
    collectParameter ⟨document', cut⟩ template index entry collected =
      collectParameter ⟨document, cut⟩ template index entry collected := by
  simp only [collectParameter, addParameter, parameter_congr hsame, resolveBound_congr hsame]

/-- Lists of parameters are taken up in the same way. -/
theorem collectParameters_congr (template : String) (index : Nat)
    (entries : List (OrReference Parameter)) (collected : ParameterMap) :
    collectParameters ⟨document', cut⟩ template index entries collected =
      collectParameters ⟨document, cut⟩ template index entries collected := by
  induction entries generalizing index collected with
  | nil => rfl
  | cons entry rest ih => simp only [collectParameters, collectParameter_congr hsame, ih]

/-- Media types are taken up in the same way. -/
theorem collectContent_congr (nameOf : String → ModelName) (content : List (String × MediaType))
    (collected : OrderedMap String ModelName) :
    collectContent ⟨document', cut⟩ nameOf content collected =
      collectContent ⟨document, cut⟩ nameOf content collected := by
  induction content generalizing collected with
  | nil => rfl
  | cons entry rest ih => simp only [collectContent, resolveBound_congr hsame, ih]

/-- Request bodies are taken up in the same way. -/
theorem collectRequestBodies_congr (template : String) (method : HttpMethod)
    (body : Option (OrReference RequestBody)) :
    collectRequestBodies ⟨document', cut⟩ template method body =
      collectRequestBodies ⟨document, cut⟩ template method body := by
  cases body with
  | none => rfl
  | some body =>
    simp only [collectRequestBodies, Document.requestBody, Document.allComponents, hsame,
      collectContent_congr hsame]

/-- Responses are taken up in the same way. -/
theorem collectResponses_congr (template : String) (method : HttpMethod)
    (responses : List (String × OrReference Response)) (collected : ResponseMap) :
    collectResponses ⟨document', cut⟩ template method responses collected =
      collectResponses ⟨document, cut⟩ template method responses collected := by
  induction responses generalizing collected with
  | nil => rfl
  | cons entry rest ih =>
    simp only [collectResponses, collectResponse, Document.response, Document.allComponents, hsame,
      collectContent_congr hsame, ih]

/-- Operations become endpoints in the same way. -/
theorem extractOperationsWith_congr (reactions : Reactions) (template : String)
    (shared : ParameterMap) (walked : WalkedPath) (operations : List (String × Operation)) :
    extractOperationsWith ⟨document', cut⟩ reactions template shared walked operations =
      extractOperationsWith ⟨document, cut⟩ reactions template shared walked operations := by
  induction operations with
  | nil => rfl
  | cons entry rest ih =>
    simp only [extractOperationsWith, extractMethodWith, extractOperationWith, buildEndpointWith,
      collectParameters_congr hsame, collectRequestBodies_congr hsame,
      collectResponses_congr hsame, ih]

/-- **The pass over paths depends on these and on the components only.** -/
theorem extractPaths_congr (paths : List (String × PathItem)) :
    extractPaths ⟨document', cut⟩ paths = extractPaths ⟨document, cut⟩ paths := by
  rw [extractPaths, extractPaths]
  induction paths with
  | nil => rfl
  | cons entry rest ih =>
    simp only [extractPathsWith, extractPathWith, collectParameters_congr hsame,
      extractOperationsWith_congr hsame, ih]

/-- **The pass over components depends on the components only.** -/
theorem extractComponents_congr (components : List (String × Node)) :
    extractComponents ⟨document', cut⟩ components =
      extractComponents ⟨document, cut⟩ components := by
  induction components with
  | nil => rfl
  | cons entry rest ih => simp only [extractComponents, resolveComponent_congr hsame, ih]

end Components

end Extraction

end ApiCatalog
