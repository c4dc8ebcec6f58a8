import ApiCatalog.Proofs.Extraction.Traversal

set_option autoImplicit false

/-!
# Invariants of an extraction

An extraction touches the state of resolution in three ways only: it adds diagnostics, it resolves
schemas of endpoints, and it resolves components. A property of the state that these and changes of
the index preserve is therefore preserved by whole passes.

## Main definitions

* `Extraction.Preserves`: a step that answers keeps a property of the state.
* `Extraction.Invariant`: a property that the basic steps of the passes over paths preserve.

## Main results

* `Extraction.preserves_walkSegments`: a walk preserves what its steps preserve.
* `Extraction.congruence_preserves`: the pass over paths preserves what its basic steps preserve.
* `ApiCatalog.extract_passes`: an extraction consists of its passes.
* `ApiCatalog.extract_preserves`: what holds in the initial state and is preserved by the basic
  steps holds at the end of an extraction.
-/

namespace ApiCatalog

namespace Extraction

/-- A step followed by another answers if both do, one from the state that the other left. -/
theorem bind_eq_ok_iff {α β : Type} {x : Extraction α} {f : α → Extraction β}
    {state state' : ExtractionState} {b : β} :
    (x >>= f) state = .ok b state' ↔ ∃ a s, x state = .ok a s ∧ f a s = .ok b state' := by
  show EStateM.bind x f state = _ ↔ _
  unfold EStateM.bind
  cases x state <;> simp [and_assoc]

/-- A change of the index is made, or refused without any effect. -/
theorem changeIndex_ok {α : Type} {state state' : ExtractionState}
    {change : PathIndex → Except PathIndexError (α × PathIndex)}
    {answer : Except PathIndexError α} (h : changeIndex change state = .ok answer state') :
    (∃ error, answer = .error error ∧ state' = state) ∨
      ∃ value index, change state.index = .ok (value, index) ∧ answer = .ok value ∧
        state' = { state with index } := by
  rw [changeIndex_apply] at h
  cases hchange : change state.index with
  | error error =>
    rw [hchange] at h
    cases h
    exact .inl ⟨error, rfl, rfl⟩
  | ok result =>
    obtain ⟨value, index⟩ := result
    rw [hchange] at h
    cases h
    exact .inr ⟨value, index, rfl, rfl, rfl⟩

/-- A step that answers keeps a property of the state. -/
def Preserves {α : Type} (inv : ExtractionState → Prop) (step : Extraction α) : Prop :=
  ∀ state answer state', inv state → step state = .ok answer state' → inv state'

namespace Preserves

variable {α β : Type} {inv : ExtractionState → Prop}

/-- An answer changes nothing. -/
theorem pure (a : α) : Preserves inv (pure a : Extraction α) := by
  rintro state answer state' hinv hstep
  cases hstep
  exact hinv

/-- A step and whatever follows it. -/
theorem bind {x : Extraction α} {f : α → Extraction β} (hx : Preserves inv x)
    (hf : ∀ a, Preserves inv (f a)) : Preserves inv (x >>= f) := by
  intro state answer state' hinv hstep
  obtain ⟨a, s, hfirst, hrest⟩ := bind_eq_ok_iff.1 hstep
  exact hf a s answer state' (hx state a s hinv hfirst) hrest

/-- A step that depends on a condition. -/
theorem ite {x y : Extraction α} {condition : Prop} [Decidable condition] (hx : Preserves inv x)
    (hy : Preserves inv y) : Preserves inv (if condition then x else y) := by
  split
  · exact hx
  · exact hy

/-- The state itself as an answer. -/
theorem get : Preserves inv (get : Extraction ExtractionState) := by
  rintro state answer state' hinv hstep
  cases hstep
  exact hinv

/-- A value that may end the extraction changes nothing. -/
theorem ofExcept (result : Except Abort α) : Preserves inv (ofExcept result) := by
  rintro state answer state' hinv hstep
  cases result <;> cases hstep
  exact hinv

/-- Asking for a cancellation changes nothing. -/
theorem isCancelled : Preserves inv isCancelled := by
  rintro state answer state' hinv hstep
  cases hstep
  exact hinv

/-- Changes of the index preserve what does not depend on the index. -/
theorem changeIndex (hindex : ∀ state index, inv state → inv { state with index })
    (change : PathIndex → Except PathIndexError (α × PathIndex)) :
    Preserves inv (changeIndex change) := by
  intro state answer state' hinv hstep
  rcases changeIndex_ok hstep with ⟨-, -, rfl⟩ | ⟨-, index, -, -, rfl⟩
  · exact hinv
  · exact hindex state index hinv

end Preserves

/-- Sequences of steps preserve what each of them preserves. -/
theorem sequential_preserves (inv : ExtractionState → Prop) :
    Sequential fun _ step _ => Preserves inv step where
  pure := .pure
  bind := .bind
  isCancelled := .isCancelled

/-- The pass over components preserves what the resolution of each component preserves. -/
theorem preserves_extractComponents {context : Context} {inv : ExtractionState → Prop}
    {components : List (String × Node)}
    (h : ∀ entry ∈ components,
      Preserves inv (ofResolver (resolveComponent context entry.1 entry.2))) :
    Preserves inv (extractComponents context components) :=
  (sequential_preserves inv).extractComponents context context h

/-- The collection of the parts of an endpoint preserves what diagnostics and the resolution of
schemas that the document asks for preserve. -/
theorem collecting_preserves {document : Document} {cancelAt : Option Nat}
    {inv : ExtractionState → Prop} (hrecord : ∀ diagnostic, Preserves inv (record diagnostic))
    (hbound : ∀ {name node}, (name, node) ∈ document.requests →
      Preserves inv (resolveBound ⟨document, cancelAt⟩ node name)) :
    Collecting document cancelAt cancelAt (fun _ => True) fun _ step _ => Preserves inv step where
  toSequential := sequential_preserves inv
  abort _ := .ofExcept _
  report _ := hrecord _
  bound := hbound

/-- **A walk preserves what its steps preserve**: diagnostics, and nodes that are looked up or
added for its segments. -/
theorem preserves_walkSegments {inv : ExtractionState → Prop} {template : String}
    {segments : List String} (hrecord : ∀ diagnostic, Preserves inv (record diagnostic))
    (hadd : ∀ segment ∈ segments, ∀ parent kind,
      Preserves inv (changeIndex (·.getOrAdd parent segment kind))) (walked : WalkedPath) :
    Preserves inv (walkSegments template segments walked) := by
  have hstop : ∀ error, Preserves inv
      (recordIndexError template error >>= fun _ => (pure none : Extraction (Option WalkedPath))) :=
    fun error => ((Preserves.ofExcept _).bind fun _ => hrecord _).bind fun _ => .pure _
  induction segments generalizing walked with
  | nil => exact .pure _
  | cons segment rest ih =>
    obtain ⟨hfirst, hrest⟩ := List.forall_mem_cons.1 hadd
    refine .ite (.ite ((hrecord _).bind fun _ => .pure _) ?_) ?_
    all_goals
      refine (hfirst _ _).bind fun found => ?_
      cases found with
      | error error => exact hstop error
      | ok id => exact ih hrest _

/-- **The pass over paths preserves what its basic steps preserve**: diagnostics, changes of the
index, and the resolution of schemas that the document asks for. -/
theorem congruence_preserves {document : Document} {cancelAt : Option Nat}
    {inv : ExtractionState → Prop} (hrecord : ∀ diagnostic, Preserves inv (record diagnostic))
    (hindex : ∀ state index, inv state → inv { state with index })
    (hbound : ∀ {name node}, (name, node) ∈ document.requests →
      Preserves inv (resolveBound ⟨document, cancelAt⟩ node name)) :
    Congruence document cancelAt cancelAt fun _ step _ => Preserves inv step where
  toSequential := sequential_preserves inv
  hasEndpoint _ _ := Preserves.get.bind fun _ => .pure _
  ofExcept := .ofExcept
  record := hrecord
  changeIndex := .changeIndex hindex
  bound := hbound

/-- A property of the state that the basic steps of the pass over paths preserve. -/
structure Invariant (context : Context) (inv : ExtractionState → Prop) : Prop where
  record : ∀ diagnostic, Preserves inv (record diagnostic)
  index : ∀ state index, inv state → inv { state with index }
  bound : ∀ node name, Preserves inv (resolveBound context node name)

/-- The basic steps that preserve an invariant make up passes that do. -/
theorem Invariant.congruence {document : Document} {cancelAt : Option Nat}
    {inv : ExtractionState → Prop} (h : Invariant ⟨document, cancelAt⟩ inv) :
    Congruence document cancelAt cancelAt fun _ step _ => Preserves inv step :=
  congruence_preserves h.record h.index fun _ => h.bound _ _

end Extraction

/-- An extraction with a result ends in it. -/
theorem passes_of_extract {document : Document} {options : Options} {state : ExtractionState}
    (h : extract document options = .ok state) :
    passes document options options.initialState = .ok () state := by
  unfold extract at h
  cases hpasses : passes document options options.initialState with
  | ok answer state' =>
    rw [hpasses] at h
    cases h
    rfl
  | error abort state' =>
    rw [hpasses] at h
    cases h

/-- An extraction consists of the pass over paths, and of that over components if they are
included. -/
theorem extract_passes {document : Document} {options : Options} {state : ExtractionState}
    (h : extract document options = .ok state) :
    ∃ s, Extraction.extractPaths ⟨document, options.cancelAt⟩ document.pathEntries
        options.initialState = .ok () s ∧
      ((options.includeComponents = true ∧
          Extraction.extractComponents ⟨document, options.cancelAt⟩ document.schemas.entries s =
            .ok () state) ∨
        (options.includeComponents = false ∧ state = s)) := by
  obtain ⟨_, s, hpaths, hcomponents⟩ :=
    Extraction.bind_eq_ok_iff.1 (passes_of_extract h)
  refine ⟨s, hpaths, ?_⟩
  cases hincluded : options.includeComponents with
  | true =>
    rw [hincluded] at hcomponents
    exact .inl ⟨rfl, hcomponents⟩
  | false =>
    rw [hincluded] at hcomponents
    cases hcomponents
    exact .inr ⟨rfl, rfl⟩

/-- **What an extraction preserves**: a property of the initial state that the basic steps of the
pass over paths preserve, and the resolution of components if they are included. -/
theorem extract_preserves {document : Document} {options : Options} {state : ExtractionState}
    {inv : ExtractionState → Prop} (h : extract document options = .ok state)
    (hinit : inv options.initialState)
    (hpaths : Extraction.Invariant ⟨document, options.cancelAt⟩ inv)
    (hcomponents : options.includeComponents = true → ∀ entry ∈ document.schemas.entries,
      Extraction.Preserves inv (Extraction.ofResolver
        (resolveComponent ⟨document, options.cancelAt⟩ entry.1 entry.2))) :
    inv state := by
  obtain ⟨s, hfirst, hsecond⟩ := extract_passes h
  have hs : inv s := hpaths.congruence.extractPaths _ _ _ hinit hfirst
  rcases hsecond with ⟨hincluded, hsecond⟩ | ⟨-, rfl⟩
  · exact Extraction.preserves_extractComponents (hcomponents hincluded) _ _ _ hs hsecond
  · exact hs

end ApiCatalog
