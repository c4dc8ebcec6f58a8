import ApiCatalog.Proofs.Analysis.PathParameters
import ApiCatalog.Proofs.Extraction.Locality
import ApiCatalog.Proofs.Extraction.ParameterNodes

set_option autoImplicit false

/-!
# Parameter nodes of an analysis

The node of a parameter is shared by the templates that pass through it and by their operations. It
is bound for the first of these templates for which an endpoint with a path parameter of the node's
name is stored, and it stays so. What is not stored binds nothing.

## Main definitions

* `PathIndex.PassesThrough`: a template passes through a node.
* `PathIndex.StandsFor`: a node stands for a parameter of a name.
* `Extraction.NamesNode`: a path stores an endpoint that names a node on its way.

## Main results

* `Extraction.boundAt_of_turn`: what the turn of a path binds.
* `Extraction.boundAt_of_pass`: what nodes are bound to after some paths.
* `ApiCatalog.parameterNodes_of_analyze`: what nodes are bound to in an analysis.
-/

namespace ApiCatalog

/-- Some of the first segments of a template lead to a node. -/
def PathIndex.PassesThrough (index : PathIndex) (template : String) (id : Nat) : Prop :=
  ∃ initial, initial <+: templateSegments template ∧ index.descend PathIndex.root initial = some id

/-- An endpoint has a path parameter of a name. -/
def Endpoint.HasPathParameter (endpoint : Endpoint) (name : String) : Prop :=
  ∃ parameter ∈ endpoint.parameters.values, parameter.location = .path ∧ parameter.name = name

/-! ## Nodes of parameters -/

namespace PathIndex

variable {index : PathIndex} {id : Nat} {name : String}

/-- A node stands for a parameter of a name: whatever leads to it ends with that parameter. -/
def StandsFor (index : PathIndex) (id : Nat) (name : String) : Prop :=
  ∀ segments, index.descend root segments = some id →
    ∃ initial, segments = initial ++ [parameterSegment name]

/-- **The node of a parameter** stands for the name between its braces. -/
theorem standsFor_parameterName (hproper : index.Proper)
    (hroot : (index.part? root).map (fun part => part.kind.segmentKind) = some .constant)
    {part : PathPart} (hpart : index.part? id = some part)
    (hkind : part.kind.segmentKind = .parameter) :
    index.StandsFor id (parameterName part.segment) := by
  intro segments hdescend
  rcases List.eq_nil_or_concat segments with rfl | ⟨initial, segment, rfl⟩
  · cases hdescend
    rw [hpart, Option.map_some, hkind] at hroot
    cases hroot
  · rw [List.concat_eq_append, descend_append] at hdescend
    obtain ⟨parent, -, hchild⟩ := Option.bind_eq_some_iff.1 hdescend
    rw [descend_singleton] at hchild
    obtain ⟨hsegment, hkind'⟩ := hproper hchild hpart
    have hparameter : isParameterSegment segment = true := by
      rw [hkind, SegmentKind.ofSegment] at hkind'
      split at hkind'
      · assumption
      · cases hkind'
    refine ⟨initial, ?_⟩
    rw [List.concat_eq_append, hsegment, ← isParameterSegment_iff.1 ⟨hparameter, rfl⟩]

/-- A node stands for one name only. -/
theorem StandsFor.name_eq (h : index.StandsFor id name) {initial : List String} {other : String}
    (hdescend : index.descend root (initial ++ [parameterSegment other]) = some id) :
    other = name := by
  obtain ⟨initial', heq⟩ := h _ hdescend
  have hlast := (List.append_inj' heq rfl).2
  have hother := (isParameterSegment_iff.2 (rfl : parameterSegment other = _)).2
  rw [(List.cons.inj hlast).1, (isParameterSegment_iff.2 rfl).2] at hother
  exact hother.symm

end PathIndex

namespace Extraction

/-- A path of a document names a node of an index: its template passes through the node, and where
the template leads to there is an endpoint that was stored for the path and that has a path
parameter of the name. -/
def NamesNode (context : Context) (start : ExtractionState) (index : PathIndex) (id : Nat)
    (name : String) (entry : String × PathItem) : Prop :=
  index.PassesThrough entry.1 id ∧ ∃ terminal endpoint,
    Stores context start entry.1 entry.2 endpoint ∧ index.find? entry.1 = some terminal ∧
      index.endpointAt terminal endpoint.method = some endpoint ∧ endpoint.HasPathParameter name

/-! ## Turns of paths -/

variable {document : Document} {cancelAt : Option Nat} {template : String} {item : PathItem}
  {start before after passed : ExtractionState} {earlier later : List (String × PathItem)}
  {index : PathIndex} {id : Nat} {name : String} {schema : ModelName}

/-- The parameters of a stored endpoint have schemas that are named after them. -/
theorem Stores.schema_eq {endpoint : Endpoint} {done : List (String × PathItem)}
    (hstart : document.Indexed done start)
    (h : Stores ⟨document, cancelAt⟩ start template item endpoint) {parameter : EndpointParameter}
    (hparameter : parameter ∈ endpoint.parameters.values) :
    parameter.schema = Naming.pathParameter template parameter.name := by
  obtain ⟨operation, -, hendpoint⟩ := h.declared hstart
  rw [hendpoint] at hparameter
  obtain ⟨declared, hdeclared, rfl⟩ := Document.exists_declared_of_mem_parametersOf hparameter
  exact (Document.mem_of_declared? hdeclared).elim Document.schema_of_mem_declaredParameters
    Document.schema_of_mem_declaredParameters

section Turns

variable (hstart : document.Indexed [] start)
  (hsplit : document.pathEntries = earlier ++ (template, item) :: later)
  (hbefore : extractPaths ⟨document, cancelAt⟩ earlier start = .ok () before)
  (hindexed : document.Indexed earlier before)
  (hturn : extractPath ⟨document, cancelAt⟩ template item before = .ok () after)
  (hactive : after.resolver.cancelled = false) (hgrows : after.index.GrowsTo index)
  (hnode : index.StandsFor id name)

include hsplit hbefore hindexed hturn hactive hgrows hnode in
/-- **A path that names a node leaves it bound** after its turn. -/
theorem isSome_boundAt_of_namesNode
    (h : NamesNode ⟨document, cancelAt⟩ start index id name (template, item)) :
    (after.index.boundAt id).isSome = true := by
  have hpath : (template, item) ∈ document.pathEntries := by simp [hsplit]
  obtain ⟨⟨segments, hprefix, hdescend⟩, -, endpoint, hstores, -, -, parameter, hparameter,
    hlocation, rfl⟩ := h
  obtain ⟨terminal, hnone, hsome⟩ := hstores.of_turn hsplit hbefore hturn
  obtain ⟨middle, -, hendpoints, hbinds⟩ := binds_extractPath hpath hindexed.spans.proper hturn
  rcases hbinds with hsame | ⟨walked, hfollows, hbinds⟩
  · rw [hsame, hendpoints, hnone] at hsome
    cases hsome
  · -- what the path stores it stores at the node that its template leads to
    have hadvances := (extractPath_yields (.any _) hpath hindexed.spans.proper
      hindexed.coherent).answer hturn
    have hcontributed := hsome
    rw [hadvances.endpointAt hactive, hnone, Option.none_or, Document.contribution] at hcontributed
    split at hcontributed
    case isFalse => cases hcontributed
    case isTrue hleads =>
    obtain rfl : walked.terminal = terminal :=
      Option.some.inj (hfollows.terminal.symm.trans hleads.2)
    obtain ⟨initial, rfl⟩ := hnode segments hdescend
    have hknown := (hfollows.mono hgrows.toExtends).find?_of_descend hprefix hdescend
    exact hbinds.bound ⟨(hendpoints _ _).trans hnone, hsome, hparameter, hlocation, hknown⟩

include hstart hsplit hbefore hindexed hturn hactive hgrows hnode in
/-- **A path after whose turn a node is bound** that was not bound before names the node, and its
template gives the schema. -/
theorem namesNode_of_boundAt (hfree : before.index.boundAt id = none)
    (hbound : after.index.boundAt id = some schema) :
    NamesNode ⟨document, cancelAt⟩ start index id name (template, item) ∧
      schema = Naming.pathParameter template name := by
  have hpath : (template, item) ∈ document.pathEntries := by simp [hsplit]
  obtain ⟨middle, hunbound, hendpoints, hbinds⟩ :=
    binds_extractPath hpath hindexed.spans.proper hturn
  rcases hbinds with hsame | ⟨walked, hfollows, hbinds⟩
  · rw [hsame, hunbound, hfree] at hbound
    cases hbound
  rcases hbinds.stems hbound with hbound | ⟨endpoint, parameter, hgains, rfl⟩
  · rw [hunbound, hfree] at hbound
    cases hbound
  have hfollows' := hfollows.mono hgrows.toExtends
  obtain ⟨initial, hinitial, hdescend⟩ := hfollows'.nodes _ id hgains.known
  obtain rfl := hnode.name_eq hdescend
  have hstores : Stores ⟨document, cancelAt⟩ start template item endpoint :=
    ⟨earlier, later, before, after, walked.terminal, hsplit, hbefore, hturn, hactive,
      (hendpoints _ _).symm.trans hgains.missing, hgains.stored⟩
  refine ⟨⟨⟨_, hinitial, hdescend⟩, walked.terminal, endpoint, hstores, hfollows'.terminal,
    hgrows.endpointAt hgains.stored, parameter, hgains.carried, hgains.location, rfl⟩, ?_⟩
  exact hstores.schema_eq hstart hgains.carried

open scoped Classical in
include hstart hsplit hbefore hindexed hturn hactive hgrows hnode in
/-- **What the turn of a path binds**: a node that is bound stays so, and any other is bound exactly
if the path names it. -/
theorem boundAt_of_turn :
    after.index.boundAt id = (before.index.boundAt id).or
      (if NamesNode ⟨document, cancelAt⟩ start index id name (template, item) then
        some (Naming.pathParameter template name) else none) := by
  have hpath : (template, item) ∈ document.pathEntries := by simp [hsplit]
  cases hold : before.index.boundAt id with
  | some schema => exact (growsTo_extractPath hpath hturn).boundAt hold
  | none =>
    have hnames : ∀ schema, after.index.boundAt id = some schema → _ := fun schema hbound =>
      namesNode_of_boundAt hstart hsplit hbefore hindexed hturn hactive hgrows hnode hold hbound
    rw [Option.none_or]
    split
    · next h =>
      obtain ⟨schema, hschema⟩ := Option.isSome_iff_exists.1
        (isSome_boundAt_of_namesNode hsplit hbefore hindexed hturn hactive hgrows hnode h)
      rw [hschema, (hnames schema hschema).2]
    · next h =>
      exact Option.eq_none_iff_forall_ne_some.2 fun schema hschema => h (hnames schema hschema).1

end Turns

open scoped Classical in
/-- **What nodes are bound to after some paths** of a pass: to the schema that the first of these
paths gives that names the node.

**Proof sketch.** Induction on the paths, the last one first: `Extraction.boundAt_of_turn` tells
what its turn binds. -/
theorem boundAt_of_pass (hstart : document.Indexed [] start) (hempty : start.index = ∅)
    (hpass : extractPaths ⟨document, cancelAt⟩ document.pathEntries start = .ok () passed)
    (hend : passed.resolver.cancelled = false) (hnode : passed.index.StandsFor id name)
    (hsplit : document.pathEntries = earlier ++ later) :
    ∃ reached, extractPaths ⟨document, cancelAt⟩ earlier start = .ok () reached ∧
      reached.index.boundAt id =
        (earlier.find? fun entry =>
          NamesNode ⟨document, cancelAt⟩ start passed.index id name entry).map fun entry =>
            Naming.pathParameter entry.1 name := by
  induction earlier using List.reverseRecOn generalizing later with
  | nil =>
    refine ⟨start, rfl, ?_⟩
    rw [hempty]
    cases id with
    | zero => rfl
    | succ id => rw [PathIndex.boundAt, PathIndex.part?_eq_none (Nat.succ_pos id)]; rfl
  | append_singleton earlier entry ih =>
    obtain ⟨template, item⟩ := entry
    rw [List.append_assoc, List.singleton_append] at hsplit
    obtain ⟨before, hbefore, hbound⟩ := ih hsplit
    obtain ⟨before', after, hbefore', hindexed, hactive, hturn, hgrows, -, hafter⟩ :=
      exists_turn_of_path hsplit hstart hpass hend
    cases hbefore.symm.trans hbefore'
    have hlater : later ⊆ document.pathEntries := fun _ h => by simp [hsplit, h]
    refine ⟨after, ?_, ?_⟩
    · rw [extractPaths_eq] at hbefore ⊢
      exact untilCancelled_append_iff.2 ⟨before, hbefore,
        untilCancelled_cons_iff.2 (.inr ⟨hactive, (), after, hturn, rfl⟩)⟩
    · rw [boundAt_of_turn hstart hsplit hbefore' hindexed hturn (hgrows.not_cancelled hend)
        (growsTo_extractPaths hlater hafter) hnode, hbound, List.find?_append, Option.map_or,
        List.find?_singleton]
      by_cases hnames : NamesNode ⟨document, cancelAt⟩ start passed.index id name (template, item)
      · rw [if_pos hnames, if_pos (decide_eq_true hnames), Option.map_some]
      · rw [if_neg hnames, if_neg (by simpa using hnames), Option.map_none]

end Extraction

open scoped Classical in
/-- **What the node of a parameter is bound to.** Take the paths of a document in their order, and
say that one of them names the node if its template passes through it and an endpoint is stored for
the path that has a path parameter of the name between the braces of the node. Then the node is
bound exactly if some path names it, and to the schema that the template of the first one gives to
that name. The same holds of any number of paths that come first, after these were taken up; and
what a node is bound to when an operation is taken up it is bound to in the end.

**Proof sketch.** `Extraction.boundAt_of_pass` for the first paths and for all of them. A node that
is bound stays so, since the index grows. -/
theorem parameterNodes_of_analyze {document : Document} {options : Options} {analysis : Analysis}
    (h : analyze document options = .ok analysis) {id : Nat} {part : PathPart}
    (hpart : analysis.paths.part? id = some part)
    (hkind : part.kind.segmentKind = .parameter) :
    let context : Context := ⟨document, options.cancelAt⟩
    let name := parameterName part.segment
    let names := Extraction.NamesNode context options.initialState analysis.paths id name
    let schemaOf := fun entry : String × PathItem => Naming.pathParameter entry.1 name
    (part.schema?.isSome = true ↔ ∃ entry ∈ document.pathEntries, names entry) ∧
      part.schema? = (document.pathEntries.find? fun entry => names entry).map schemaOf ∧
      (∀ earlier later reached, document.pathEntries = earlier ++ later →
        Extraction.extractPaths context earlier options.initialState = .ok () reached →
        reached.index.boundAt id = (earlier.find? fun entry => names entry).map schemaOf) ∧
      ∃ passed, Extraction.extractPaths context document.pathEntries options.initialState =
          .ok () passed ∧ analysis.paths = passed.index ∧
        ∀ {template item method operation shared walked before after},
          Extraction.OperationTurn context options.initialState passed template item method
            operation shared walked before after →
          ∀ schema, (before.index.boundAt id = some schema →
              after.index.boundAt id = some schema) ∧
            (after.index.boundAt id = some schema → part.schema? = some schema) := by
  intro context name names schemaOf
  obtain ⟨state, hextract, hend, rfl⟩ := analyze_ok h
  obtain ⟨passed, hpaths, hlater, hindex, -⟩ := exists_passed_of_extract hextract
  replace hindex : (Analysis.ofState state).paths = passed.index := hindex
  have hend' := hlater.not_cancelled hend
  have hproper : passed.index.Proper :=
    (Extraction.indexed_of_pass (.inl indexed_initialState) hpaths hend').1.spans.proper
  have hgrown : (∅ : PathIndex).GrowsTo passed.index :=
    Extraction.growsTo_extractPaths (List.Subset.refl _) hpaths
  have hpart' : passed.index.part? id = some part := hindex ▸ hpart
  have hnode : passed.index.StandsFor id name :=
    PathIndex.standsFor_parameterName hproper (hgrown.segmentKind rfl) hpart' hkind
  have hbound : passed.index.boundAt id = part.schema? := by
    rw [PathIndex.boundAt, hpart', Option.bind_some]
  have hhistory : ∀ earlier later, document.pathEntries = earlier ++ later →
      ∃ reached, Extraction.extractPaths context earlier options.initialState = .ok () reached ∧
        reached.index.boundAt id = (earlier.find? fun entry => names entry).map schemaOf :=
    fun earlier later hsplit => by
      simp only [names, hindex]
      exact Extraction.boundAt_of_pass indexed_initialState rfl hpaths hend' hnode hsplit
  have hfirst : part.schema? =
      (document.pathEntries.find? fun entry => names entry).map schemaOf := by
    obtain ⟨reached, hreached, hfirst⟩ := hhistory _ [] (List.append_nil _).symm
    cases hpaths.symm.trans hreached
    rw [← hbound, hfirst]
  refine ⟨?_, hfirst, fun earlier later reached hsplit hreached => ?_, passed, hpaths, hindex,
    fun hturn schema => ⟨fun hbefore => ?_, fun hafter => ?_⟩⟩
  · rw [hfirst, Option.isSome_map, List.find?_isSome]
    simp only [decide_eq_true_eq]
  · obtain ⟨reached', hreached', hbound'⟩ := hhistory earlier later hsplit
    cases hreached.symm.trans hreached'
    exact hbound'
  · have hrequests := hturn.requests_subset
    cases hturn with
    | intro _ _ _ _ _ _ turn =>
      exact (Extraction.growsTo_extractOperation hrequests turn).boundAt hbefore
  · rw [← hbound]
    exact hturn.grows.2.boundAt hafter

/-- A path whose operation has no parameter, another spelling of it, and a path that goes on. -/
def sharedNodePaths : List (String × PathItem) :=
  [("/a/{id}", { get := some {} }),
   ("/a/{id}/", { get := some { parameters := [textParameter "id" .path] } }),
   ("/a/{id}/b", { get := some { parameters := [textParameter "id" .path] } })]

/-- A document with these paths. -/
def sharedNode : Document :=
  .ofPaths sharedNodePaths []

/-- The node of the parameter is bound for the last of these paths: for the first one an endpoint
without parameters is stored, and for the other spelling none. -/
theorem parameterNodes_sharedNode :
    ∃ analysis part, analyze sharedNode {} = .ok analysis ∧
      analysis.paths.part? 2 = some part ∧ part.segment = "{id}" ∧
      part.schema? = some (Naming.pathParameter "/a/{id}/b" "id") ∧
      ∀ entry ∈ sharedNodePaths,
        Extraction.NamesNode ⟨sharedNode, none⟩ {} analysis.paths 2 "id" entry ↔
          entry.1 = "/a/{id}/b" := by
  classical
  have hcheck : ((analyze sharedNode {}).toOption.any fun analysis =>
      (analysis.paths.part? 2).any fun part => part.segment = "{id}" &&
        part.kind = .parameter (some (Naming.pathParameter "/a/{id}/b" "id"))) = true := by
    decide +kernel
  obtain ⟨analysis, h, hcheck⟩ := exists_of_any_toOption hcheck
  obtain ⟨part, hpart, hcheck⟩ := (Option.any_eq_true _ _).1 hcheck
  simp only [Bool.and_eq_true, decide_eq_true_eq] at hcheck
  obtain ⟨hsegment, hkind⟩ := hcheck
  have hparameter : part.kind.segmentKind = .parameter := by rw [hkind]; rfl
  have hschema : part.schema? = some (Naming.pathParameter "/a/{id}/b" "id") := by
    rw [PathPart.schema?, hkind]; rfl
  have hname : parameterName part.segment = "id" := by rw [hsegment]; decide
  have hentries : sharedNode.pathEntries = sharedNodePaths := rfl
  obtain ⟨-, hfirst, -⟩ := parameterNodes_of_analyze h hpart hparameter
  rw [hschema, hentries, hname] at hfirst
  obtain ⟨first, hfind, hsame⟩ := Option.map_eq_some_iff.1 hfirst.symm
  -- the names of the schemas tell which of the paths is the first one
  rw [sharedNodePaths, List.find?_cons] at hfind
  split at hfind
  · cases hfind
    exact absurd hsame (by decide +kernel)
  next hplain =>
  rw [List.find?_cons] at hfind
  split at hfind
  · cases hfind
    exact absurd hsame (by decide +kernel)
  next hspelled =>
  rw [List.find?_cons] at hfind
  split at hfind
  case h_2 => cases hfind
  next hnames =>
  replace hnames := of_decide_eq_true hnames
  replace hplain := of_decide_eq_false hplain
  replace hspelled := of_decide_eq_false hspelled
  refine ⟨analysis, part, h, hpart, hsegment, hschema, fun entry hentry => ?_⟩
  simp only [sharedNodePaths, List.mem_cons, List.not_mem_nil, or_false] at hentry
  rcases hentry with rfl | rfl | rfl
  · exact iff_of_false hplain (by decide)
  · exact iff_of_false hspelled (by decide)
  · exact iff_of_true hnames rfl

end ApiCatalog
