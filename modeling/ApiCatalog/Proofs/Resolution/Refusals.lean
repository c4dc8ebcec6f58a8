import ApiCatalog.Proofs.Resolution.Entrances

set_option autoImplicit false

/-!
# References that are refused

A well-formed reference that leads to no component schema is refused: it fails, and the report of it
is all that is new. But what was resolved before, and what is being resolved, goes by the names of
components only, whatever their kinds. So a reference to a component of another kind that shares its
name with a component schema is answered as if it were a reference to that.

## Main definitions

* `Document.LeadsNowhere`: a well-formed reference leads to no component schema.
* `ApiCatalog.Reached`: what a resolver comes to while it serves requests.
* `ApiCatalog.Refuses`: a reference is refused.

## Main results

* `ApiCatalog.componentName_of_ofPath`: the component that a well-formed reference points at.
* `ApiCatalog.refuses_iff`: when a reference that leads nowhere is refused.
* `Reached.named`: what is finished or being resolved are component schemas.
* `ApiCatalog.refuses_of_reached`: what becomes of references that lead nowhere.
-/

namespace ApiCatalog

/-! ## Well-formed references -/

/-- The rest after a given beginning is what is left. -/
theorem Reference.after?_eq_some_iff {expected text rest : List Char} :
    after? expected text = some rest ↔ text = expected ++ rest := by
  induction expected generalizing text with
  | nil => simp [after?]
  | cons c expected ih =>
    cases text with
    | nil => simp [after?]
    | cons d text =>
      rw [after?, List.cons_append, List.cons.injEq]
      split
      · next heq => rw [ih]; simp [heq]
      · next hne => simp [Ne.symm hne]

/-- A well-formed reference begins with its source, and then goes on as one within a document. -/
theorem Reference.toList_of_ofPath {target : String} {reference : Reference}
    (h : ofPath target = .ok reference) :
    '#' ∉ reference.source.toList ∧
      ∃ rest, target.toList = reference.source.toList ++ (marker ++ rest) := by
  unfold ofPath at h
  split at h
  · next found hfound =>
    cases h
    obtain ⟨rest, hafter, hfound⟩ := Option.bind_eq_some_iff.1 hfound
    have hsource : reference.source = String.ofList (target.toList.takeWhile (· ≠ '#')) := by
      split at hfound
      · simp only [Option.ite_none_left_eq_some, Option.some.injEq] at hfound
        exact (congrArg Reference.source hfound.2).symm
      · cases hfound
    rw [hsource, String.toList_ofList]
    refine ⟨fun hmem => ?_, rest, ?_⟩
    · simpa using List.all_eq_true.1 List.all_takeWhile _ hmem
    · rw [← after?_eq_some_iff.1 hafter, List.takeWhile_append_dropWhile]
  · cases h

/-- **The component that a well-formed reference points at**: there is none if the reference has a
source or an unknown kind. -/
theorem componentName_of_ofPath {target : String} {reference : Reference}
    (h : Reference.ofPath target = .ok reference) :
    componentName target =
      if reference.source = "" then
        match reference.kind with
        | .error _ => .ok none
        | .ok _ => .ok (some reference.name)
      else .ok none := by
  obtain ⟨hsource, rest, htarget⟩ := Reference.toList_of_ofPath h
  have hmarker : Reference.marker = internalMarker ++ ['/'] := by decide +kernel
  have hfirst : internalMarker = '#' :: "/components".toList := by decide +kernel
  unfold componentName
  split_ifs with hempty
  · have hafter : Reference.after? internalMarker target.toList = some ('/' :: rest) := by
      rw [Reference.after?_eq_some_iff, htarget, hempty, hmarker, List.append_assoc]
      rfl
    cases hkind : reference.kind <;> simp only [hafter, h, hkind]
  · have hafter : Reference.after? internalMarker target.toList = none := by
      rw [Option.eq_none_iff_forall_ne_some]
      intro rest' hrest
      rw [Reference.after?_eq_some_iff, htarget, hfirst] at hrest
      cases hlist : reference.source.toList with
      | nil => exact hempty (String.toList_inj.1 (by simpa using hlist))
      | cons c others =>
        rw [hlist, List.cons_append, List.cons_append, List.cons.injEq] at hrest
        exact hsource (by rw [hlist, hrest.1]; exact List.mem_cons_self)
    simp only [hafter]

/-! ## Refusals -/

/-- A well-formed reference leads to no component schema: it has a source, so that it goes outside
of the document, or it is looked up in vain. -/
def Document.LeadsNowhere (document : Document) (target : String) : Prop :=
  ∃ reference, Reference.ofPath target = .ok reference ∧
    (reference.source ≠ "" ∨ ∃ error, document.findSchema target = .ok (.error error))

/-- What points at a component, and leads nowhere, is looked up in vain. -/
theorem Document.LeadsNowhere.findSchema_eq {document : Document} {target id : String}
    (h : document.LeadsNowhere target) (hname : componentName target = .ok (some id)) :
    ∃ error, document.findSchema target = .ok (.error error) := by
  obtain ⟨reference, hreference, hsource | hfound⟩ := h
  · rw [componentName_of_ofPath hreference, if_neg hsource] at hname
    cases hname
  · exact hfound

/-- What leads nowhere: a reference that goes outside of the document, that names no component
schema by its kind, or that names one which the document does not have. -/
theorem Document.leadsNowhere_of_ofPath {document : Document} {target : String}
    {reference : Reference} (h : Reference.ofPath target = .ok reference)
    (hcases : reference.source ≠ "" ∨ reference.kind ≠ .ok .schema ∨
      reference.name ∉ document.schemaIds) : document.LeadsNowhere target := by
  refine ⟨reference, h, ?_⟩
  rcases hcases with hsource | hcases
  · exact .inl hsource
  right
  rw [Document.findSchema, lookUp]
  cases hkind : reference.kind with
  | error error =>
    have hname : Reference.nameFor .schema target = .ok (.error error) := by
      simp only [Reference.nameFor, h, hkind]
    exact ⟨error, by rw [lookUpFrom, hname]⟩
  | ok found =>
    have hname : Reference.nameFor .schema target =
        if found = .schema then .ok (.ok reference.name)
        else .ok (.error (.mismatchedType found .schema)) := by
      simp only [Reference.nameFor, h, hkind]
    split_ifs at hname with hschema
    · rw [hkind, hschema] at hcases
      have hmissing : document.schemas.find? reference.name = none :=
        SortedMap.findIn_eq_none_iff.2 (hcases.resolve_left fun hne => hne rfl)
      exact ⟨.unresolvable target, by rw [lookUpFrom_of_nameFor hname, hmissing]⟩
    · exact ⟨.mismatchedType found .schema, by rw [lookUpFrom, hname]⟩

section Refusals

variable {context : Context} {active : List ModelName} {target : String} {hint : ModelName}
  {nullable : Bool} {state state' : ResolverState}

/-- A reference is refused: it fails without references, and nothing is new but the report of it. -/
def Refuses (context : Context) (active : List ModelName) (target : String) (hint : ModelName)
    (nullable : Bool) (state : ResolverState) : Prop :=
  ∃ reason, resolveNode context (followReference context active) (.reference target) hint nullable
    state = .ok .failed (state.record (.unresolvedReference hint target reason))

/-- A node is resolved by a run. -/
theorem resolveNode_iff_runs {node : Node} {resolution : Resolution} :
    resolveNode context (followReference context active) node hint nullable state =
        .ok resolution state' ↔
      Runs context active (.atNode node hint nullable) state resolution state' :=
  ⟨fun hstep => runs_of_ok hstep, fun hrun => hrun.step_eq_ok⟩

/-- What records a diagnostic changes the state. -/
theorem ResolverState.record_ne (state : ResolverState) (diagnostic : Diagnostic) :
    state.record diagnostic ≠ state := by
  intro h
  have hlength := congrArg (fun s => s.diagnostics.length) h
  simp at hlength

/-- **When a reference that leads nowhere is refused**: unless it shares its name with a component
that is finished or is being resolved.

**Proof sketch.** A run of the reference that leaves a report is one of the two rules that refuse
it, and the second of them asks that no component of that name is finished or active. -/
theorem refuses_iff (hnowhere : context.document.LeadsNowhere target)
    (hlive : state.cancelled = false) :
    Refuses context active target hint nullable state ↔
      ∀ id, componentName target = .ok (some id) →
        state.memo.find? id = none ∧ id ∉ active := by
  constructor
  · rintro ⟨reason, hstep⟩ id hname
    have hrun := resolveNode_iff_runs.1 hstep
    generalize hend : state.record _ = after at hrun
    obtain ⟨error, hfound⟩ := hnowhere.findSchema_eq hname
    cases hrun with
    | cancelled | finished => exact absurd hend (ResolverState.record_ne _ _)
    | refused _ hnone =>
      rw [hname] at hnone
      cases hnone
    | missing _ hname' hmemo hnew =>
      rw [hname] at hname'
      cases hname'
      exact ⟨hmemo, hnew⟩
    | entered _ _ _ _ hfound' =>
      rw [hfound] at hfound'
      cases hfound'
  · intro hfree
    cases hname : componentName target with
    | error abort =>
      obtain ⟨reference, hreference, -⟩ := hnowhere
      have hmalformed := (componentName_eq_error hname).1
      rw [Reference.ofPath, hmalformed] at hreference
      cases hreference
    | ok name =>
      cases name with
      | none => exact ⟨_, resolveNode_iff_runs.2 (.refused hlive hname)⟩
      | some id =>
        obtain ⟨error, hfound⟩ := hnowhere.findSchema_eq hname
        obtain ⟨hmemo, hnew⟩ := hfree id hname
        exact ⟨_, resolveNode_iff_runs.2 (.missing hlive hname hmemo hnew hfound)⟩

/-- A reference that leads nowhere and is not refused is answered for the component whose name it
shares, and nothing is recorded. -/
theorem answers_of_not_refuses (hnowhere : context.document.LeadsNowhere target)
    (hlive : state.cancelled = false)
    (h : ¬ Refuses context active target hint nullable state) :
    ∃ id resolution, componentName target = .ok (some id) ∧
      (state.memo.find? id = some resolution ∨ (id ∈ active ∧ resolution = .single id true)) ∧
      resolveNode context (followReference context active) (.reference target) hint nullable state =
        .ok resolution state := by
  rw [refuses_iff hnowhere hlive] at h
  push Not at h
  obtain ⟨id, hname, hused⟩ := h
  cases hmemo : state.memo.find? id with
  | some resolution =>
    exact ⟨id, resolution, hname, .inl hmemo,
      resolveNode_iff_runs.2 (.finished hlive hname hmemo)⟩
  | none =>
    have hactive := hused hmemo
    exact ⟨id, _, hname, .inr ⟨hactive, rfl⟩,
      resolveNode_iff_runs.2 (.busy hlive hname hmemo hactive)⟩

end Refusals

/-! ## What a resolver comes to -/

/-- What a resolver comes to while it serves requests that give components their nodes in the
document: the components that are being resolved, and the state. -/
inductive Reached (context : Context) : List ModelName → ResolverState → Prop
  /-- Between two requests. -/
  | between {turns : List Turn} {state : ResolverState} (h : Session context turns state)
      (hdocument : ∀ turn ∈ turns, turn.request.FromDocument context.document) :
      Reached context [] state
  /-- In the midst of a request. -/
  | within {turns : List Turn} {state : ResolverState} {request : Request} {start frame : Frame}
      (h : Session context turns state)
      (hdocument : ∀ turn ∈ turns, turn.request.FromDocument context.document)
      (hrequest : request.FromDocument context.document)
      (hstart : request.frame? state = some start)
      (hcalls : Relation.ReflTransGen (Calls context) start frame) :
      Reached context frame.active frame.state

/-- The components that are finished are component schemas. -/
def Document.Names (document : Document) (state : ResolverState) : Prop :=
  ∀ id resolution, state.memo.find? id = some resolution → id ∈ document.schemaIds

section Reached

variable {context : Context} {state state' : ResolverState}

/-- A run finishes component schemas only. -/
theorem Runs.names {kind : StageKind} {active : List ModelName} {stage : Stage kind}
    {answer : kind.Answer} (h : Runs context active stage state answer state')
    (hnames : context.document.Names state) : context.document.Names state' := by
  intro id resolution hfind
  rcases h.memo_cases hfind with hold | ⟨-, target, schema, -, -, hname, hfound, -⟩
  · exact hnames id resolution hold
  · exact mem_schemaIds_of_findSchema hname hfound

/-- So does what a stage does before it calls another. -/
theorem Calls.names {caller callee : Frame} (h : Calls context caller callee)
    (hnames : context.document.Names caller.state) : context.document.Names callee.state := by
  rcases h with hcall | ⟨id, hcall⟩
  · cases hcall with
    | inline | members | member | property | properties | items => exact hnames
    | object =>
      intro id resolution hfind
      rw [ResolverState.memo_registerAll] at hfind
      exact hnames id resolution hfind
    | array _ _ hrun =>
      refine hrun.names fun id resolution hfind => ?_
      rw [ResolverState.memo_registerAll] at hfind
      exact hnames id resolution hfind
    | otherMembers _ hrun => exact hrun.names hnames
    | otherProperties hrun => exact hrun.names hnames
  · cases hcall
    exact hnames

/-- A session that resolves the document's components finishes component schemas only. -/
theorem names_of_session {turns : List Turn} (h : Session context turns state)
    (hdocument : ∀ turn ∈ turns, turn.request.FromDocument context.document) :
    context.document.Names state := by
  induction h with
  | start => exact fun _ _ hmemo => nomatch hmemo
  | @next turns state state' request answer _ hperform ih =>
    have hbefore := ih fun turn hturn => hdocument turn (List.mem_cons_of_mem _ hturn)
    have hrequest := hdocument _ List.mem_cons_self
    cases request with
    | schema node hint =>
      obtain ⟨resolution, s, hresolve, hanswer⟩ := Resolver.bind_eq_ok_iff.1 hperform
      cases hanswer
      exact (runs_of_ok hresolve).names hbefore
    | component id node =>
      rcases resolveComponent_ok hperform with ⟨-, -, rfl⟩ | ⟨resolution, s, -, -, -, hrun, rfl⟩
      · exact hbefore
      · intro other found hfound
        rcases ResolverState.find?_memoise_cases hfound with hold | ⟨rfl, -⟩
        · exact hrun.names hbefore other found hold
        · exact SortedMap.mem_keys_of_find? hrequest
    | record diagnostic =>
      cases hperform
      exact hbefore

/-- **What is finished or being resolved are component schemas of the document.** -/
theorem Reached.named {active : List ModelName} (h : Reached context active state) :
    context.document.Names state ∧ active ⊆ context.document.schemaIds := by
  cases h with
  | between h hdocument => exact ⟨names_of_session h hdocument, List.nil_subset _⟩
  | @within turns state request start frame h hdocument hrequest hstart hcalls =>
    have hnames := names_of_session h hdocument
    have hbegin : context.document.Names start.state ∧
        start.active ⊆ context.document.schemaIds := by
      cases request with
      | schema node hint =>
        cases hstart
        exact ⟨hnames, List.nil_subset _⟩
      | component id node =>
        cases hstart
        exact ⟨hnames, List.cons_subset.2 ⟨SortedMap.mem_keys_of_find? hrequest,
          List.nil_subset _⟩⟩
      | record diagnostic => cases hstart
    clear hstart hnames
    induction hcalls with
    | refl => exact hbegin
    | tail _ hcall ih =>
      refine ⟨hcall.names ih.1, ?_⟩
      rcases hcall with hcall | ⟨id, hcall⟩
      · rw [hcall.active_eq]
        exact ih.2
      · obtain ⟨hactive, -, hid⟩ := hcall.active_eq
        rw [hactive]
        exact List.cons_subset.2 ⟨hid, ih.2⟩

end Reached

/-! ## What becomes of references that lead nowhere -/

/-- **What becomes of a reference that leads nowhere**, whatever was resolved before or is being
resolved: it is refused exactly if no component that is finished or being resolved has the name that
it points at. So it is refused if it goes outside of the document, if its kind is unknown, or if
the document has no component schema of its name. Otherwise it is answered for the component schema
whose name it shares: as that was answered when it was finished, or by its name while it is being
resolved; and nothing is recorded.

**Proof sketch.** `refuses_iff` for the first part. The components that are finished or being
resolved are component schemas by `Reached.named`, which gives the second part, and with
`answers_of_not_refuses` the third. -/
theorem refuses_of_reached {context : Context} {active : List ModelName} {state : ResolverState}
    (h : Reached context active state) (hlive : state.cancelled = false) {target : String}
    (hnowhere : context.document.LeadsNowhere target) (hint : ModelName) (nullable : Bool) :
    (Refuses context active target hint nullable state ↔
      ∀ id, componentName target = .ok (some id) → state.memo.find? id = none ∧ id ∉ active) ∧
    (∀ reference, Reference.ofPath target = .ok reference →
      (reference.source ≠ "" ∨ (∃ error, reference.kind = .error error) ∨
        reference.name ∉ context.document.schemaIds) →
      Refuses context active target hint nullable state) ∧
    (¬ Refuses context active target hint nullable state →
      ∃ id ∈ context.document.schemaIds, ∃ resolution, componentName target = .ok (some id) ∧
        (state.memo.find? id = some resolution ∨ (id ∈ active ∧ resolution = .single id true)) ∧
        resolveNode context (followReference context active) (.reference target) hint nullable
          state = .ok resolution state) := by
  obtain ⟨hfinished, hactive⟩ := h.named
  refine ⟨refuses_iff hnowhere hlive, fun reference hreference hcases => ?_, fun hnot => ?_⟩
  · rw [refuses_iff hnowhere hlive]
    intro id hname
    rw [componentName_of_ofPath hreference] at hname
    split_ifs at hname with hsource
    swap
    · cases hname
    rcases hcases with hne | ⟨error, hkind⟩ | hmissing
    · exact absurd hsource hne
    · rw [hkind] at hname
      cases hname
    · have hid : reference.name = id := by
        split at hname
        · cases hname
        · simpa using hname
      subst hid
      refine ⟨?_, fun hmem => hmissing (hactive hmem)⟩
      cases hmemo : state.memo.find? reference.name with
      | none => rfl
      | some resolution => exact absurd (hfinished _ _ hmemo) hmissing
  · obtain ⟨id, resolution, hname, hused, hanswer⟩ :=
      answers_of_not_refuses hnowhere hlive hnot
    refine ⟨id, ?_, resolution, hname, hused, hanswer⟩
    rcases hused with hmemo | ⟨hmem, -⟩
    · exact hfinished id resolution hmemo
    · exact hactive hmem

/-- A document with one component schema. -/
def soleSchema : Document :=
  .ofSchemas [("X", .inline { types := .ofList [.object] })]

/-- A resolver that has resolved the component schema. -/
def soleSchemaResolved : ResolverState :=
  (({} : ResolverState).register none (.object "X" ∅)).memoise "X" ⟨["X"], true⟩

/-- The resolver comes to this state. -/
theorem reached_soleSchemaResolved : Reached ⟨soleSchema, none⟩ [] soleSchemaResolved := by
  have hperform : (Request.component "X" (.inline { types := .ofList [.object] })).perform
      ⟨soleSchema, none⟩ {} = .ok (some ⟨["X"], true⟩) soleSchemaResolved := by
    rfl
  refine .between (.next (.start ∅) hperform) fun turn hturn => ?_
  obtain rfl := List.mem_singleton.1 hturn
  rfl

/-- References to another kind, to an unknown kind, to a missing component and to another document
are refused. -/
theorem refuses_soleSchema :
    Refuses ⟨soleSchema, none⟩ [] "#/components/parameters/Y" "h" false soleSchemaResolved ∧
    Refuses ⟨soleSchema, none⟩ [] "#/components/definitions/X" "h" false soleSchemaResolved ∧
    Refuses ⟨soleSchema, none⟩ [] "#/components/schemas/Y" "h" false soleSchemaResolved ∧
    Refuses ⟨soleSchema, none⟩ [] "pets.yaml#/components/schemas/X" "h" false
      soleSchemaResolved := by
  have hrefuses : ∀ target reference, Reference.ofPath target = .ok reference →
      (reference.source ≠ "" ∨ (∃ error, reference.kind = .error error) ∨
        reference.name ∉ soleSchema.schemaIds) →
      Refuses ⟨soleSchema, none⟩ [] target "h" false soleSchemaResolved := by
    intro target reference hreference hcases
    have hnowhere : soleSchema.LeadsNowhere target := by
      refine Document.leadsNowhere_of_ofPath hreference (hcases.imp_right (Or.imp_left ?_))
      rintro ⟨error, hkind⟩
      simp [hkind]
    exact (refuses_of_reached reached_soleSchemaResolved rfl hnowhere "h" false).2.1 reference
      hreference hcases
  exact ⟨hrefuses _ ⟨"", "parameters", "Y"⟩ rfl (.inr (.inr (by decide))),
    hrefuses _ ⟨"", "definitions", "X"⟩ rfl (.inr (.inl ⟨_, rfl⟩)),
    hrefuses _ ⟨"", "schemas", "Y"⟩ rfl (.inr (.inr (by decide))),
    hrefuses _ ⟨"pets.yaml", "schemas", "X"⟩ rfl (.inl (by decide))⟩

/-- **A reference to a parameter is answered for the component schema of that name**, with success
and without a report. -/
theorem answers_namesake :
    soleSchema.LeadsNowhere "#/components/parameters/X" ∧
    Reached ⟨soleSchema, none⟩ [] soleSchemaResolved ∧ soleSchemaResolved.cancelled = false ∧
    resolve ⟨soleSchema, none⟩ (.reference "#/components/parameters/X") "h" soleSchemaResolved =
      .ok ⟨["X"], true⟩ soleSchemaResolved := by
  have hreference : Reference.ofPath "#/components/parameters/X" =
      .ok ⟨"", "parameters", "X"⟩ := rfl
  have hnowhere : soleSchema.LeadsNowhere "#/components/parameters/X" :=
    Document.leadsNowhere_of_ofPath hreference (.inr (.inl (by decide)))
  have hanswer : resolveNode ⟨soleSchema, none⟩ (followReference ⟨soleSchema, none⟩ [])
      (.reference "#/components/parameters/X") "h" false soleSchemaResolved =
      .ok ⟨["X"], true⟩ soleSchemaResolved :=
    resolveNode_iff_runs.2 (.finished rfl rfl rfl)
  exact ⟨hnowhere, reached_soleSchemaResolved, rfl, hanswer⟩

end ApiCatalog
