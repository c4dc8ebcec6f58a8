import ApiCatalog.Proofs.Extraction.Visits
import ApiCatalog.Proofs.PathIndex.Growth

set_option autoImplicit false

/-!
# Following segments

A walk along a template follows its segments to a node, and knows the nodes of its parameters by
their names. Beside that, an extraction changes the index by proper calls only, so that the index is
a tree throughout.

## Main definitions

* `ApiCatalog.firstRepeated?`: the first segment that names a parameter again.
* `ApiCatalog.parameterSegment`: the segment of a parameter.
* `WalkedPath.Follows`: a walk has followed segments to a node.

## Main results

* `WalkedPath.Follows.isParameter`: the nodes that a walk knows by name are parameters.
* `WalkedPath.Follows.find?_of_descend`: a walk knows the nodes of its parameters.
* `Extraction.follows_walkSegments`: a walk follows the segments, or reports the first repetition.
* `Extraction.extractOperation_ok`: what an operation does for a node of the index.
* `Extraction.growsTo_extractPaths`, `ApiCatalog.growsTo_of_extract`: an extraction changes the
  index by proper calls.
-/

namespace ApiCatalog

/-! ## Names that repeat -/

/-- The first parameter among segments whose name is known, or repeats. -/
def firstRepeated? : List String → List String → Option String
  | _, [] => none
  | known, segment :: rest =>
    if isParameterSegment segment then
      if parameterName segment ∈ known then some segment
      else firstRepeated? (known ++ [parameterName segment]) rest
    else firstRepeated? known rest

/-- Nothing repeats exactly if all names are distinct. -/
theorem firstRepeated?_eq_none_iff {known segments : List String} (hknown : known.Nodup) :
    firstRepeated? known segments = none ↔ (known ++ parameterNames segments).Nodup := by
  induction segments generalizing known with
  | nil => simpa [firstRepeated?, parameterNames] using hknown
  | cons segment rest ih =>
    rw [firstRepeated?, parameterNames_cons]
    split
    · split
      · next hmem =>
        refine iff_of_false (Option.some_ne_none segment) fun hnodup => ?_
        exact (List.nodup_append.1 hnodup).2.2 _ hmem _ List.mem_cons_self rfl
      · next hnew =>
        have hnext : (known ++ [parameterName segment]).Nodup :=
          List.nodup_append.2 ⟨hknown, List.nodup_singleton _, fun a ha b hb heq =>
            hnew (List.mem_singleton.1 hb ▸ heq ▸ ha)⟩
        rw [ih hnext, List.append_assoc]
        rfl
    · exact ih hknown

/-- **A template is acceptable exactly if no parameter repeats.** -/
theorem acceptable_iff {template : String} :
    Acceptable template ↔ firstRepeated? [] (templateSegments template) = none := by
  rw [firstRepeated?_eq_none_iff List.nodup_nil]
  rfl

/-- The parameters of segments and then of others. -/
theorem parameterNames_append (segments rest : List String) :
    parameterNames (segments ++ rest) = parameterNames segments ++ parameterNames rest := by
  rw [parameterNames, List.filter_append, List.map_append]
  rfl

/-- The segment of a parameter: its name, in braces. -/
def parameterSegment (name : String) : String :=
  "\x7b" ++ name ++ "\x7d"

/-- A segment in braces is a parameter, named by what stands between them. -/
theorem isParameterSegment_iff {segment name : String} :
    isParameterSegment segment = true ∧ parameterName segment = name ↔
      segment = parameterSegment name := by
  have hbraces : (parameterSegment name).toList = '{' :: (name.toList ++ ['}']) := by
    rw [parameterSegment, String.toList_append, String.toList_append]
    rfl
  constructor
  · rintro ⟨hparameter, hname⟩
    unfold isParameterSegment at hparameter
    unfold parameterName at hname
    rw [← String.toList_inj, hbraces]
    split at hparameter
    · next rest hrest =>
      rw [hrest] at hname ⊢
      have hlast : rest.getLast? = some '}' := by simpa using hparameter
      simp only [hlast, if_true] at hname
      obtain ⟨initial, rfl⟩ := List.getLast?_eq_some_iff.1 hlast
      rw [← hname, List.dropLast_concat, String.toList_ofList]
    · cases hparameter
  · rintro rfl
    unfold isParameterSegment parameterName
    rw [hbraces]
    simp

/-- A name is that of a parameter of a template exactly if it stands there in braces. -/
theorem mem_parameterNames_iff {segments : List String} {name : String} :
    name ∈ parameterNames segments ↔ parameterSegment name ∈ segments := by
  simp only [parameterNames, List.mem_map, List.mem_filter]
  constructor
  · rintro ⟨segment, ⟨hmem, hparameter⟩, hname⟩
    exact isParameterSegment_iff.1 ⟨hparameter, hname⟩ ▸ hmem
  · intro hmem
    obtain ⟨hparameter, hname⟩ := isParameterSegment_iff.2 (rfl : parameterSegment name = _)
    exact ⟨_, ⟨hmem, hparameter⟩, hname⟩

/-- In segments whose parameters have distinct names, a parameter stands in one place only. -/
theorem initial_unique {segments initial initial' : List String} {name : String}
    (hdistinct : (parameterNames segments).Nodup)
    (h : initial ++ [parameterSegment name] <+: segments)
    (h' : initial' ++ [parameterSegment name] <+: segments) : initial = initial' := by
  have hrepeats : ∀ {first second : List String}, second ++ [parameterSegment name] <+: segments →
      ¬ first ++ [parameterSegment name] <+: second := by
    rintro first second hsecond hfirst
    have hbefore : name ∈ parameterNames second :=
      mem_parameterNames_iff.2 (hfirst.subset (List.mem_append_right _ List.mem_cons_self))
    have hlast : name ∈ parameterNames [parameterSegment name] :=
      mem_parameterNames_iff.2 List.mem_cons_self
    obtain ⟨rest, rfl⟩ := hsecond
    rw [parameterNames_append, parameterNames_append] at hdistinct
    exact (List.nodup_append.1 (List.nodup_append.1 hdistinct).1).2.2 _ hbefore _ hlast rfl
  rcases List.prefix_or_prefix_of_prefix h h' with hle | hle
  · rcases List.prefix_concat_iff.1 hle with heq | hle
    · exact List.append_cancel_right heq
    · exact absurd hle (hrepeats h')
  · rcases List.prefix_concat_iff.1 hle with heq | hle
    · exact (List.append_cancel_right heq).symm
    · exact absurd hle (hrepeats h)

/-! ## Walks -/

/-- A walk has followed segments from the root to a node: it knows the names of the parameters among
them, and under each name the node that the segments lead to as far as the parameter. -/
structure WalkedPath.Follows (walked : WalkedPath) (index : PathIndex) (segments : List String) :
    Prop where
  terminal : index.descend PathIndex.root segments = some walked.terminal
  keys : walked.parameters.keys = parameterNames segments
  nodes : ∀ name id, walked.parameters.find? name = some id → ∃ initial,
    initial ++ [parameterSegment name] <+: segments ∧
      index.descend PathIndex.root (initial ++ [parameterSegment name]) = some id

namespace WalkedPath.Follows

variable {walked : WalkedPath} {index index' : PathIndex} {segments : List String}
  {segment : String} {id : Nat}

/-- At the root no segment was followed. -/
theorem start (index : PathIndex) : (⟨PathIndex.root, ∅⟩ : WalkedPath).Follows index [] :=
  ⟨rfl, rfl, fun _ _ h => nomatch h⟩

/-- What was followed can be followed while the index grows. -/
theorem mono (h : walked.Follows index segments) (hextends : index.Extends index') :
    walked.Follows index' segments := by
  refine ⟨hextends.descend h.terminal, h.keys, fun name id hfind => ?_⟩
  obtain ⟨initial, hinitial, hdescend⟩ := h.nodes name id hfind
  exact ⟨initial, hinitial, hextends.descend hdescend⟩

/-- One segment more leads to a child. -/
theorem descend_next (h : walked.Follows index segments)
    (hchild : index.child? walked.terminal segment = some id) :
    index.descend PathIndex.root (segments ++ [segment]) = some id := by
  rw [PathIndex.descend_append, h.terminal, Option.bind_some, PathIndex.descend_singleton, hchild]

/-- A segment that is no parameter is followed. -/
theorem constant (h : walked.Follows index segments)
    (hchild : index.child? walked.terminal segment = some id)
    (hconstant : isParameterSegment segment = false) :
    (⟨id, walked.parameters⟩ : WalkedPath).Follows index (segments ++ [segment]) := by
  refine ⟨h.descend_next hchild, ?_, fun name found hfind => ?_⟩
  · rw [parameterNames_append, parameterNames_cons, hconstant, if_neg Bool.false_ne_true, h.keys]
    exact (List.append_nil _).symm
  · obtain ⟨initial, hinitial, hdescend⟩ := h.nodes name found hfind
    exact ⟨initial, hinitial.trans (List.prefix_append _ _), hdescend⟩

/-- A parameter with a new name is followed. -/
theorem parameter (h : walked.Follows index segments)
    (hchild : index.child? walked.terminal segment = some id)
    (hparameter : isParameterSegment segment = true)
    (hnew : parameterName segment ∉ parameterNames segments) :
    (⟨id, walked.parameters.insert (parameterName segment) id⟩ : WalkedPath).Follows index
      (segments ++ [segment]) := by
  refine ⟨h.descend_next hchild, ?_, fun name found hfind => ?_⟩
  · rw [parameterNames_append, parameterNames_cons, if_pos hparameter, OrderedMap.keys_insert,
      h.keys, if_neg hnew]
    rfl
  · rw [OrderedMap.find?_insert] at hfind
    split at hfind
    · next hname =>
      cases hfind
      rw [← isParameterSegment_iff.1 ⟨hparameter, hname⟩]
      exact ⟨segments, List.prefix_rfl, h.descend_next hchild⟩
    · obtain ⟨initial, hinitial, hdescend⟩ := h.nodes name found hfind
      exact ⟨initial, hinitial.trans (List.prefix_append _ _), hdescend⟩

/-- **The nodes that a walk knows by name are parameters.** -/
theorem isParameter (h : walked.Follows index segments) (hproper : index.Proper) {name : String}
    (hfind : walked.parameters.find? name = some id) :
    ∃ part, index.part? id = some part ∧ part.kind.segmentKind = .parameter := by
  obtain ⟨initial, -, hdescend⟩ := h.nodes name id hfind
  have hlt := PathIndex.lt_of_descend index.root_lt hdescend
  obtain ⟨part, hpart⟩ := Option.isSome_iff_exists.1 (PathIndex.part?_isSome_iff.2 hlt)
  rw [PathIndex.descend_append] at hdescend
  obtain ⟨parent, -, hchild⟩ := Option.bind_eq_some_iff.1 hdescend
  rw [PathIndex.descend_singleton] at hchild
  have hbraces : isParameterSegment (parameterSegment name) = true :=
    (isParameterSegment_iff.2 rfl).1
  refine ⟨part, hpart, ?_⟩
  rw [(hproper hchild hpart).2, SegmentKind.ofSegment, if_pos hbraces]

/-- A name is known exactly if the segments name a parameter so. -/
theorem find?_isSome_iff (h : walked.Follows index segments) (name : String) :
    (walked.parameters.find? name).isSome = true ↔ name ∈ parameterNames segments := by
  rw [← h.keys, ← OrderedMap.contains_iff]
  rfl

/-- **A walk knows the nodes of its parameters** by their names. -/
theorem find?_of_descend (h : walked.Follows index segments) {initial : List String}
    {name : String} (hinitial : initial ++ [parameterSegment name] <+: segments)
    (hdescend : index.descend PathIndex.root (initial ++ [parameterSegment name]) = some id) :
    walked.parameters.find? name = some id := by
  have hdistinct : (parameterNames segments).Nodup := h.keys ▸ walked.parameters.nodup_keys
  have hmem : parameterSegment name ∈ segments :=
    hinitial.subset (List.mem_append_right _ List.mem_cons_self)
  obtain ⟨found, hfind⟩ := Option.isSome_iff_exists.1
    ((h.find?_isSome_iff name).2 (mem_parameterNames_iff.2 hmem))
  obtain ⟨initial', hinitial', hdescend'⟩ := h.nodes name found hfind
  obtain rfl := initial_unique hdistinct hinitial hinitial'
  rw [hfind, ← hdescend', hdescend]

end WalkedPath.Follows

namespace Extraction

variable {document : Document} {cancelAt : Option Nat} {template : String} {item : PathItem}
  {state state' : ExtractionState}

/-- A change that the index does not refuse is made, whatever is done at refusals. -/
theorem changeIndexWith_of_ok {α : Type} (reactions : Reactions)
    {change : PathIndex → Except PathIndexError (α × PathIndex)} {value : α} {index : PathIndex}
    (h : change state.index = .ok (value, index)) :
    changeIndexWith reactions change state = .ok (.ok value) { state with index } := by
  rw [changeIndexWith, h]

/-- A change that the index does not refuse is made. -/
theorem changeIndex_of_ok {α : Type} {change : PathIndex → Except PathIndexError (α × PathIndex)}
    {value : α} {index : PathIndex} (h : change state.index = .ok (value, index)) :
    changeIndex change state = .ok (.ok value) { state with index } :=
  changeIndexWith_of_ok .none h

/-- What a walk has come to: it has followed the segments, with nothing to report, or it has
reported the first repetition. -/
def Arrives (template : String) (done segments : List String) (state : ExtractionState)
    (state' : ExtractionState) : Option WalkedPath → Prop
  | some last => firstRepeated? (parameterNames done) segments = none ∧
      state'.resolver = state.resolver ∧ last.Follows state'.index (done ++ segments)
  | none => ∃ segment, firstRepeated? (parameterNames done) segments = some segment ∧
      state'.resolver = state.resolver.record (.duplicateParameterSegment template segment)

/-- A walk that goes on after one segment. -/
theorem Arrives.next {done rest : List String} {segment : String} {index : PathIndex}
    {answer : Option WalkedPath}
    (hfirst : firstRepeated? (parameterNames done) (segment :: rest) =
      firstRepeated? (parameterNames (done ++ [segment])) rest)
    (h : Arrives template (done ++ [segment]) rest { state with index } state' answer) :
    Arrives template done (segment :: rest) state state' answer := by
  cases answer with
  | none =>
    obtain ⟨repeated, hrepeated, hresolver⟩ := h
    exact ⟨repeated, hfirst.trans hrepeated, hresolver⟩
  | some last =>
    obtain ⟨hnone, hresolver, hfollows⟩ := h
    rw [List.append_assoc] at hfollows
    exact ⟨hfirst.trans hnone, hresolver, hfollows⟩

/-- **A walk follows the segments**, or reports the first repetition.

**Proof sketch.** Induction on the segments. A proper index refuses none of them. -/
theorem follows_walkSegments {done segments : List String} {walked : WalkedPath}
    {answer : Option WalkedPath} (hproper : state.index.Proper)
    (hstart : walked.Follows state.index done)
    (h : walkSegments template segments walked state = .ok answer state') :
    Arrives template done segments state state' answer := by
  induction segments generalizing done walked state with
  | nil =>
    cases h
    refine ⟨rfl, rfl, ?_⟩
    rwa [List.append_nil]
  | cons segment rest ih =>
    have hterminal := PathIndex.lt_of_descend state.index.root_lt hstart.terminal
    obtain ⟨id, index, hadd, hlaid, hchild⟩ :=
      PathIndex.getOrAdd_of_proper hproper hterminal segment
    have hsame := hstart.mono hlaid.toExtends
    rw [walkSegments, walkSegmentsWith] at h
    by_cases hparameter : isParameterSegment segment = true
    · rw [if_pos hparameter] at h
      rw [SegmentKind.ofSegment, if_pos hparameter] at hadd
      by_cases hknown : parameterName segment ∈ parameterNames done
      · have hcontains : walked.parameters.contains (parameterName segment) = true :=
          OrderedMap.contains_iff.2 (hstart.keys ▸ hknown)
        rw [if_pos hcontains] at h
        cases h
        refine ⟨segment, ?_, rfl⟩
        rw [firstRepeated?, if_pos hparameter, if_pos hknown]
      · have hcontains : ¬ walked.parameters.contains (parameterName segment) = true :=
          fun hcontains => hknown (hstart.keys ▸ OrderedMap.contains_iff.1 hcontains)
        rw [if_neg hcontains] at h
        obtain ⟨found, s, hchange, h⟩ := bind_eq_ok_iff.1 h
        cases (changeIndex_of_ok hadd).symm.trans hchange
        refine .next ?_ (ih hlaid.proper (hsame.parameter hchild hparameter hknown) h)
        rw [firstRepeated?, if_pos hparameter, if_neg hknown, parameterNames_append,
          parameterNames_cons, if_pos hparameter]
        rfl
    · rw [if_neg hparameter] at h
      rw [SegmentKind.ofSegment, if_neg hparameter] at hadd
      rw [Bool.not_eq_true] at hparameter
      obtain ⟨found, s, hchange, h⟩ := bind_eq_ok_iff.1 h
      cases (changeIndex_of_ok hadd).symm.trans hchange
      refine .next ?_ (ih hlaid.proper (hsame.constant hchild hparameter) h)
      rw [firstRepeated?, hparameter, if_neg Bool.false_ne_true, parameterNames_append,
        parameterNames_cons, hparameter, if_neg Bool.false_ne_true]
      exact congrArg (firstRepeated? · rest) (List.append_nil _).symm

/-! ## Changes of the index -/

/-- The index grows while an endpoint is built. -/
theorem building_growsTo (document : Document) (cancelAt : Option Nat) (origin : PathIndex) :
    Building document cancelAt cancelAt (fun _ => True) fun _ step _ =>
      Guarded (fun state => origin.GrowsTo state.index) (fun _ => True) step := by
  refine building_guarded (fun _ hgrows => hgrows) (fun hbind hgrows => hgrows.bind hbind) ?_
  intro name node _ state hgrows
  refine ⟨fun hstep => ?_, fun _ => trivial⟩
  obtain ⟨resolution, resolver, -, rfl⟩ := resolveBound_ok hstep
  exact hgrows

/-- The index grows along a walk. -/
theorem growsTo_walkSegments {origin : PathIndex} {segments : List String}
    (hsegments : ∀ segment ∈ segments, IsSegment segment) (walked : WalkedPath) :
    Preserves (fun state => origin.GrowsTo state.index)
      (walkSegments template segments walked) := by
  refine preserves_walkSegments (fun diagnostic => ?_) (fun segment hmem parent kind => ?_) walked
  · rintro state _ state' hgrows hstep
    cases hstep
    exact hgrows
  · intro state _ state' hgrows hstep
    rcases changeIndex_ok hstep with ⟨-, -, rfl⟩ | ⟨id, index, hadd, -, rfl⟩
    · exact hgrows
    · exact hgrows.getOrAdd (hsegments segment hmem) hadd

section Paths

variable {shared : ParameterMap} {walked : WalkedPath}

/-- **What an operation does** for a node of the index: it is reported if the node has an endpoint
for its method, and otherwise its endpoint is built and inserted. -/
theorem extractOperation_ok {method : HttpMethod} {operation : Operation}
    (hrequests : document.operationRequests template method operation ⊆ document.requests)
    (hterminal : walked.terminal < state.index.parts.length)
    (h : extractOperation ⟨document, cancelAt⟩ template shared walked method operation state =
      .ok () state') :
    ((state.index.endpointAt walked.terminal method).isSome = true ∧ state' =
        { state with resolver := state.resolver.record (.duplicateMethod template method) }) ∨
      (state.index.endpointAt walked.terminal method = none ∧ ∃ endpoint s index,
        endpoint.method = method ∧
        buildEndpoint ⟨document, cancelAt⟩ template method operation shared walked state =
          .ok endpoint s ∧
        s.index.insertEndpoint walked.terminal endpoint = .ok index ∧
        state' = { s with index }) := by
  obtain ⟨_, _, hasked, h⟩ := bind_eq_ok_iff.1 h
  cases hasked
  split at h
  · next hknown =>
    cases h
    exact .inl ⟨hknown, rfl⟩
  next hfree =>
  replace hfree : state.index.endpointAt walked.terminal method = none := by
    simpa [PathIndex.endpointAt] using hfree
  obtain ⟨endpoint, s, hbuild, hrest⟩ := bind_eq_ok_iff.1 h
  obtain rfl := buildEndpoint_method hbuild
  have hbuilds : state.Builds s := ((building_builds (.any _) state).buildEndpoint hrequests
    (fun _ _ => trivial) shared walked state (.refl state)).answer hbuild
  obtain ⟨index, hinsert, -, -⟩ := PathIndex.insertEndpoint_of_free
    (hbuilds.outline.length_eq.symm ▸ hterminal) ((hbuilds.endpointAt _ _).trans hfree)
  obtain ⟨found, s', hchange, hlast⟩ := bind_eq_ok_iff.1 hrest
  have hmade : changeIndex (fun index =>
      (index.insertEndpoint walked.terminal endpoint).map (((), ·))) s =
        .ok (.ok ()) { s with index } := by
    refine changeIndex_of_ok ?_
    rw [hinsert]
    rfl
  cases hmade.symm.trans hchange
  cases hlast
  exact .inr ⟨hfree, endpoint, s, index, rfl, hbuild, hinsert, rfl⟩

/-- An operation changes the index by proper calls. -/
theorem growsTo_extractOperation {method : HttpMethod} {operation : Operation}
    (hrequests : document.operationRequests template method operation ⊆ document.requests)
    (h : extractOperation ⟨document, cancelAt⟩ template shared walked method operation state =
      .ok () state') : state.index.GrowsTo state'.index := by
  obtain ⟨known, s, hknown, h⟩ := bind_eq_ok_iff.1 h
  cases hknown
  split at h
  · cases h
    exact .refl _
  · obtain ⟨endpoint, s₁, hbuild, hrest⟩ := bind_eq_ok_iff.1 h
    obtain ⟨found, s₂, hchange, hlast⟩ := bind_eq_ok_iff.1 hrest
    have hbuilt : state.index.GrowsTo s₁.index :=
      ((building_growsTo document cancelAt state.index).buildEndpoint hrequests
        (fun _ _ => trivial) shared walked state (.refl _)).answer hbuild
    rcases changeIndex_ok hchange with ⟨error, rfl, rfl⟩ | ⟨value, index, hinsert, rfl, rfl⟩
    · have hkept : Preserves (fun state : ExtractionState => s₂.index = state.index)
          (recordIndexError template error) := by
        refine (Preserves.ofExcept _).bind fun diagnostic state _ state' hindex hstep => ?_
        cases hstep
        exact hindex
      rw [← hkept s₂ _ _ rfl hlast]
      exact hbuilt
    · cases hlast
      cases hinserted : s₁.index.insertEndpoint walked.terminal endpoint with
      | error error =>
        rw [hinserted] at hinsert
        cases hinsert
      | ok inserted =>
        rw [hinserted] at hinsert
        cases hinsert
        exact hbuilt.insertEndpoint hinserted

/-- Operations change the index by proper calls. -/
theorem growsTo_extractOperations {operations : List (HttpMethod × Operation)}
    (hpath : (template, item) ∈ document.pathEntries) (hoperations : operations ⊆ item.operations)
    (h : extractOperations ⟨document, cancelAt⟩ template shared walked operations state =
      .ok () state') : state.index.GrowsTo state'.index := by
  induction operations generalizing state with
  | nil =>
    cases h
    exact .refl _
  | cons entry rest ih =>
    obtain ⟨hfirst, hrest⟩ := List.cons_subset.1 hoperations
    rw [extractOperations_eq] at h
    rcases untilCancelled_cons_iff.1 h with ⟨-, rfl⟩ | ⟨-, _, s, hstep, hothers⟩
    · exact .refl _
    · rw [← extractOperations_eq] at hothers
      have hrequests := List.Subset.trans (Document.operationRequests_subset hfirst)
        (Document.pathRequests_subset hpath)
      exact (growsTo_extractOperation hrequests hstep).trans (ih hrest hothers)

/-- The shared parameters of a path leave the index to be changed by proper calls. -/
theorem growsTo_collectParameters {entries : List (OrReference Parameter)} {index : Nat}
    {collected answer : ParameterMap}
    (hrequests : document.parameterRequests template entries ⊆ document.requests)
    (h : collectParameters ⟨document, cancelAt⟩ template index entries collected state =
      .ok answer state') : state.index.GrowsTo state'.index :=
  ((building_growsTo document cancelAt state.index).collectParameters hrequests
    (fun _ _ => trivial) index collected state (.refl _)).answer h

/-- A walk along a template changes the index by proper calls. -/
theorem growsTo_walkTemplate {answer : Option WalkedPath}
    (h : walkTemplate template state = .ok answer state') : state.index.GrowsTo state'.index :=
  growsTo_walkSegments (fun _ => isSegment_of_mem) _ state answer state' (.refl _) h

/-- A path changes the index by proper calls. -/
theorem growsTo_extractPath (hpath : (template, item) ∈ document.pathEntries)
    (h : extractPath ⟨document, cancelAt⟩ template item state = .ok () state') :
    state.index.GrowsTo state'.index := by
  have hrequests := (List.append_subset.1 (Document.pathRequests_subset hpath)).1
  obtain ⟨shared, s₁, hshared, h⟩ := bind_eq_ok_iff.1 h
  obtain ⟨answer, s₂, hwalk, h⟩ := bind_eq_ok_iff.1 h
  have hwalked := (growsTo_collectParameters hrequests hshared).trans (growsTo_walkTemplate hwalk)
  cases answer with
  | none =>
    cases h
    exact hwalked
  | some walked =>
    exact hwalked.trans (growsTo_extractOperations hpath (List.Subset.refl _) h)

/-- **Paths change the index by proper calls.** -/
theorem growsTo_extractPaths {paths : List (String × PathItem)}
    (hpaths : paths ⊆ document.pathEntries)
    (h : extractPaths ⟨document, cancelAt⟩ paths state = .ok () state') :
    state.index.GrowsTo state'.index := by
  induction paths generalizing state with
  | nil =>
    cases h
    exact .refl _
  | cons entry rest ih =>
    obtain ⟨hfirst, hrest⟩ := List.cons_subset.1 hpaths
    rw [extractPaths_eq] at h
    rcases untilCancelled_cons_iff.1 h with ⟨-, rfl⟩ | ⟨-, _, s, hstep, hothers⟩
    · exact .refl _
    · rw [← extractPaths_eq] at hothers
      exact (growsTo_extractPath hfirst hstep).trans (ih hrest hothers)

end Paths

end Extraction

/-- **The index of an extraction grows from the empty one by proper calls.** -/
theorem growsTo_of_extract {document : Document} {options : Options} {state : ExtractionState}
    (h : extract document options = .ok state) : (∅ : PathIndex).GrowsTo state.index := by
  obtain ⟨passed, hpaths, hcomponents⟩ := extract_passes h
  have hgrown := Extraction.growsTo_extractPaths (List.Subset.refl _) hpaths
  rcases hcomponents with ⟨-, hcomponents⟩ | ⟨-, rfl⟩
  · rw [(Extraction.grows_extractComponents hcomponents).2.1]
    exact hgrown
  · exact hgrown

end ApiCatalog
