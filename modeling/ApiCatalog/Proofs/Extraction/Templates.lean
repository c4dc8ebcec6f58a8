import ApiCatalog.Proofs.Extraction.Endpoints
import ApiCatalog.Proofs.Extraction.Outcomes

set_option autoImplicit false

/-!
# Laying templates into the index

A template whose parameters have distinct names is laid into the index and leads to a node there.
Any other one is reported once, and leaves at most some nodes behind.

## Main definitions

* `ApiCatalog.parameterNames`: the names of the parameters among segments.
* `ApiCatalog.Acceptable`: the parameters of a template have distinct names.
* `Extraction.Walked`: what becomes of segments.

## Main results

* `Extraction.walkSegments_yields`: segments are laid just if their parameters do not repeat.
-/

namespace ApiCatalog

/-! ## Acceptable templates -/

/-- The names of the parameters among segments, in order. -/
def parameterNames (segments : List String) : List String :=
  (segments.filter isParameterSegment).map parameterName

/-- The parameters of a template have distinct names. -/
def Acceptable (template : String) : Prop :=
  (parameterNames (templateSegments template)).Nodup

instance (template : String) : Decidable (Acceptable template) :=
  inferInstanceAs (Decidable (List.Nodup _))

/-- The parameters of segments are those of the first one and of the others. -/
theorem parameterNames_cons (segment : String) (rest : List String) :
    parameterNames (segment :: rest) =
      if isParameterSegment segment then parameterName segment :: parameterNames rest
      else parameterNames rest := by
  rw [parameterNames, List.filter_cons]
  split <;> rfl

/-! ## Laying segments -/

namespace Extraction

variable {excuse : Abort → Prop} {state : ExtractionState} {template : String}

/-- What becomes of segments: they are laid, or a parameter repeats and is reported. -/
structure Walked (template : String) (segments : List String) (walked : WalkedPath)
    (state : ExtractionState) (answer : Option WalkedPath) (state' : ExtractionState) : Prop where
  laid : state.index.Laid state'.index walked.terminal segments
  accepted : ∀ last, answer = some last →
    (walked.parameters.keys ++ parameterNames segments).Nodup ∧ state'.resolver = state.resolver ∧
      state'.index.descend walked.terminal segments = some last.terminal
  refused : answer = none →
    ¬ (walked.parameters.keys ++ parameterNames segments).Nodup ∧ ∃ segment ∈ segments,
      state'.resolver = state.resolver.record (.duplicateParameterSegment template segment)

/-- A segment is laid below a node, and the others below the child. -/
theorem Walked.cons {segment : String} {rest : List String} {walked : WalkedPath} {id : Nat}
    {parameters : OrderedMap String Nat} {index : PathIndex} {answer : Option WalkedPath}
    {state' : ExtractionState}
    (hlaid : state.index.Laid index walked.terminal [segment])
    (hchild : index.child? walked.terminal segment = some id)
    (hnames : parameters.keys ++ parameterNames rest =
      walked.parameters.keys ++ parameterNames (segment :: rest))
    (h : Walked template rest ⟨id, parameters⟩ { state with index } answer state') :
    Walked template (segment :: rest) walked state answer state' where
  laid := hlaid.cons h.laid hchild
  accepted := by
    intro last hlast
    obtain ⟨hnodup, hresolver, hdescend⟩ := h.accepted last hlast
    refine ⟨hnames ▸ hnodup, hresolver, ?_⟩
    rw [PathIndex.descend_cons, h.laid.toExtends.child hchild]
    exact hdescend
  refused := by
    intro hnone
    obtain ⟨hrepeats, other, hother, hresolver⟩ := h.refused hnone
    exact ⟨hnames ▸ hrepeats, other, List.mem_cons_of_mem _ hother, hresolver⟩

/-- A segment is laid below a node of a proper index, and then the others are. -/
theorem getOrAdd_yields {segment : String} {rest : List String} {walked : WalkedPath}
    {parameters : Nat → OrderedMap String Nat}
    (hproper : state.index.Proper) (hterminal : walked.terminal < state.index.parts.length)
    (hnames : ∀ id, (parameters id).keys ++ parameterNames rest =
      walked.parameters.keys ++ parameterNames (segment :: rest))
    (ih : ∀ {walked state}, PathIndex.Proper (ExtractionState.index state) →
      walked.terminal < state.index.parts.length →
      Yields (walkSegments template rest walked) state (Walked template rest walked state) excuse) :
    Yields (do
        match ← changeIndex (·.getOrAdd walked.terminal segment (.ofSegment segment)) with
        | .error error =>
          recordIndexError template error
          return none
        | .ok id => walkSegments template rest ⟨id, parameters id⟩)
      state (Walked template (segment :: rest) walked state) excuse := by
  obtain ⟨id, index, hadd, hlaid, hchild⟩ :=
    PathIndex.getOrAdd_of_proper hproper hterminal segment
  have hchange :
      Yields (changeIndex (·.getOrAdd walked.terminal segment (.ofSegment segment))) state
        (fun answer s => answer = .ok id ∧ s = { state with index }) excuse := by
    refine .changeIndex (fun error hrefused => ?_) fun id' index' hmade => ?_
    · rw [hadd] at hrefused
      cases hrefused
    · rw [hadd] at hmade
      cases hmade
      exact ⟨rfl, rfl⟩
  refine hchange.bind ?_
  rintro _ _ - ⟨rfl, rfl⟩
  refine (ih hlaid.proper (PathIndex.lt_of_child? hchild).2).mono fun answer state' hwalked => ?_
  exact hwalked.cons hlaid hchild (hnames id)

/-- **What becomes of the segments of a template**: below a node of a proper index they are laid,
and lead to a node, just if the names of their parameters are distinct from each other and from
those before. Otherwise the first repetition is reported and nothing else.

**Proof sketch.** Induction on the segments. A proper index refuses no segment, and new names come
after those before. -/
theorem walkSegments_yields (segments : List String) {walked : WalkedPath}
    (hproper : state.index.Proper) (hterminal : walked.terminal < state.index.parts.length) :
    Yields (walkSegments template segments walked) state (Walked template segments walked state)
      excuse := by
  induction segments generalizing walked state with
  | nil =>
    refine .pure ⟨.refl hproper _ _, fun last hlast => ?_, fun hnone => nomatch hnone⟩
    cases hlast
    refine ⟨?_, rfl, rfl⟩
    rw [parameterNames, List.filter_nil, List.map_nil, List.append_nil]
    exact walked.parameters.nodup_keys
  | cons segment rest ih =>
    rw [walkSegments, walkSegmentsWith]
    have hnames := parameterNames_cons segment rest
    by_cases hparameter : isParameterSegment segment = true
    · rw [if_pos hparameter] at hnames ⊢
      have hkind : SegmentKind.parameter = .ofSegment segment := by
        rw [SegmentKind.ofSegment, if_pos hparameter]
      by_cases hknown : walked.parameters.contains (parameterName segment) = true
      · rw [if_pos hknown]
        have hrecorded : Yields (record (.duplicateParameterSegment template segment)) state
            (fun _ s => s.index = state.index ∧ s.resolver =
              state.resolver.record (.duplicateParameterSegment template segment)) excuse :=
          .record ⟨rfl, rfl⟩
        refine hrecorded.bind fun _ s _ ⟨hindex, hresolver⟩ => .pure ⟨?_, ?_, fun _ => ?_⟩
        · rw [hindex]
          exact .refl hproper _ _
        · exact fun last hlast => nomatch hlast
        refine ⟨?_, segment, List.mem_cons_self, hresolver⟩
        rw [hnames]
        intro hnodup
        exact (List.nodup_append.1 hnodup).2.2 _ (OrderedMap.contains_iff.1 hknown) _
          List.mem_cons_self rfl
      · rw [if_neg hknown, hkind]
        refine getOrAdd_yields hproper hterminal (fun id => ?_) ih
        have hnew : parameterName segment ∉ walked.parameters.keys := fun hmem =>
          hknown (OrderedMap.contains_iff.2 hmem)
        rw [hnames, OrderedMap.keys_insert, if_neg hnew, List.append_assoc]
        rfl
    · rw [if_neg hparameter] at hnames ⊢
      have hkind : SegmentKind.constant = .ofSegment segment := by
        rw [SegmentKind.ofSegment, if_neg hparameter]
      rw [hkind]
      exact getOrAdd_yields hproper hterminal (fun id => by rw [hnames]) ih

end Extraction

end ApiCatalog
