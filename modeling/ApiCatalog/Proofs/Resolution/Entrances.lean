import ApiCatalog.Proofs.Resolution.Origins
import ApiCatalog.Proofs.Translation.Acyclic

set_option autoImplicit false

/-!
# The two ways into a component

A component is resolved by itself, from the node that the document has for it, or by a reference to
it, which looks its schema up first. For a component that is written in place the two do the same in
every respect. An alias is resolved under its own id by a reference, but under the id of the
component that it names by itself; this makes no difference only if the schema is flat.

## Main definitions

* `Request.Agree`: two requests are answered with the same resolution, models and diagnostics.

## Main results

* `ApiCatalog.perform_component_inline`: the two ways into a component that is written in place.
* `ApiCatalog.agree_of_isFlat`, `ApiCatalog.isFlat_of_agree`: the two ways into an alias.
* `ApiCatalog.entrances_of_session`: in which sessions and for which components the two ways agree.
-/

namespace ApiCatalog

/-! ## Looking an alias up -/

/-- A look-up that comes to an end does so after fewer aliases, too. -/
theorem lookUpFrom_of_subset {α : Type} {kind : ComponentKind}
    {entries : SortedMap (OrReference α)} {visited visited' : List String} {target : String}
    {found : Except ReferenceError α} (hsubset : visited' ⊆ visited)
    (h : lookUpFrom kind entries visited target = .ok found) :
    lookUpFrom kind entries visited' target = .ok found := by
  induction visited, target using lookUpFrom.induct kind entries generalizing visited' with
  | case1 visited target abort hname | case2 visited target error hname =>
    rw [lookUpFrom, hname] at h ⊢
    exact h
  | case3 visited target name hname hfind | case4 visited target name hname value hfind =>
    rw [lookUpFrom_of_nameFor hname, hfind] at h ⊢
    exact h
  | case5 visited target name hname next hfind hvisited =>
    rw [lookUpFrom_of_nameFor hname, hfind] at h
    simp only [if_pos hvisited] at h
    cases h
  | case6 visited target name hname next hfind hvisited ih =>
    rw [lookUpFrom_of_nameFor hname, hfind] at h ⊢
    simp only [if_neg hvisited] at h
    simp only [if_neg fun hmem => hvisited (hsubset hmem)]
    exact ih (List.cons_subset_cons name hsubset) h

section Alias

variable {document : Document} {id target : String} {schema : Schema}

/-- A reference to a component that is written in place finds its schema. -/
theorem Document.findSchema_of_inline (hid : Nameable id)
    (hfind : document.schemas.find? id = some (.inline schema)) :
    document.findSchema (schemaReference id) = .ok (.ok schema) := by
  rw [Document.findSchema, lookUp, lookUpFrom_of_nameFor hid.nameFor_eq, hfind]

/-- A reference to an alias of a component that is written in place finds the schema of that. -/
theorem Document.findSchema_alias_of_inline {other : String} (hid : Nameable id)
    (hfind : document.schemas.find? id = some (.reference (schemaReference other)))
    (hother : Nameable other) (hinline : document.schemas.find? other = some (.inline schema)) :
    document.findSchema (schemaReference id) = .ok (.ok schema) := by
  rw [Document.findSchema, lookUp, lookUpFrom_of_nameFor hid.nameFor_eq, hfind]
  simp only [List.not_mem_nil, if_false]
  rw [lookUpFrom_of_nameFor hother.nameFor_eq, hinline]

/-- What a reference to an alias finds, a reference to what the alias names finds. -/
theorem Document.findSchema_of_alias (hid : Nameable id)
    (hfind : document.schemas.find? id = some (.reference target))
    {found : Except ReferenceError Schema}
    (h : document.findSchema (schemaReference id) = .ok found) :
    document.findSchema target = .ok found := by
  rw [Document.findSchema, lookUp, lookUpFrom_of_nameFor hid.nameFor_eq, hfind] at h
  exact lookUpFrom_of_subset (List.nil_subset _) h

/-- An alias that stands for a schema does not name itself. -/
theorem Document.ne_of_alias (hid : Nameable id)
    (hfind : document.schemas.find? id = some (.reference target))
    (hfound : document.findSchema (schemaReference id) = .ok (.ok schema)) {other : String}
    (hname : componentName target = .ok (some other)) : other ≠ id := by
  rintro rfl
  exact Document.not_standsFor_of_self hfind (targetName?_of_componentName hname)
    (standsFor_of_findSchema hid.componentName_eq hfound)

end Alias

/-! ## Requests and runs -/

/-- Two requests in a state are answered with the same resolution, and leave the same models and
diagnostics. -/
def Request.Agree (context : Context) (first second : Request) (state : ResolverState) : Prop :=
  ∃ resolution after after', first.perform context state = .ok (some resolution) after ∧
    second.perform context state = .ok (some resolution) after' ∧
    after'.repository = after.repository ∧ after'.diagnostics = after.diagnostics

section Entrances

variable {context : Context} {state : ResolverState} {id target : String} {hint : ModelName}
  {node : Node} {schema : Schema}

/-- A schema is resolved by a run from outside of all components. -/
theorem perform_schema_iff {resolution : Resolution} {after : ResolverState} :
    (Request.schema node hint).perform context state = .ok (some resolution) after ↔
      Runs context [] (.atNode node hint false) state resolution after := by
  constructor
  · intro h
    obtain ⟨resolution, s, hresolve, hanswer⟩ := Resolver.bind_eq_ok_iff.1 h
    cases hanswer
    exact runs_of_ok hresolve
  · exact fun hrun => Resolver.bind_eq_ok hrun.step_eq_ok rfl

/-- A new component is resolved by a run from within itself, and memoised. -/
theorem perform_component_iff (hfree : state.repository.contains id = false)
    (hnew : state.memo.contains id = false) {resolution : Resolution} {after : ResolverState} :
    (Request.component id node).perform context state = .ok (some resolution) after ↔
      ∃ s, Runs context [id] (.atNode node id false) state resolution s ∧
        after = s.memoise id resolution := by
  constructor
  · intro h
    rcases resolveComponent_ok h with ⟨-, hanswer, -⟩ | ⟨_, s, -, -, hanswer, hrun, rfl⟩
    · cases hanswer
    · cases hanswer
      exact ⟨s, hrun, rfl⟩
  · rintro ⟨s, hrun, rfl⟩
    exact resolveComponent_of_runs hfree hnew hrun

/-- The two ways into a component agree if there are runs for them that do. -/
theorem agree_iff_runs (hfree : state.repository.contains id = false)
    (hnew : state.memo.contains id = false) :
    Request.Agree context (.component id node) (.schema (.reference (schemaReference id)) hint)
        state ↔
      ∃ resolution own other, Runs context [id] (.atNode node id false) state resolution own ∧
        Runs context [] (.atNode (.reference (schemaReference id)) hint false) state resolution
          other ∧
        other.repository = own.repository ∧ other.diagnostics = own.diagnostics := by
  constructor
  · rintro ⟨resolution, after, after', hcomponent, hschema, hmodels, hdiagnostics⟩
    obtain ⟨own, hown, rfl⟩ := (perform_component_iff hfree hnew).1 hcomponent
    rw [ResolverState.repository_memoise] at hmodels
    rw [ResolverState.diagnostics_memoise] at hdiagnostics
    exact ⟨resolution, own, after', hown, perform_schema_iff.1 hschema, hmodels, hdiagnostics⟩
  · rintro ⟨resolution, own, other, hown, hother, hmodels, hdiagnostics⟩
    refine ⟨resolution, _, other, (perform_component_iff hfree hnew).2 ⟨own, hown, rfl⟩,
      perform_schema_iff.2 hother, ?_, ?_⟩
    · rw [ResolverState.repository_memoise, hmodels]
    · rw [ResolverState.diagnostics_memoise, hdiagnostics]

/-! ## Components that are written in place -/

/-- **The two ways into a component that is written in place are the same**, whatever comes of
them: the schema that a reference looks up is the one that is passed on. -/
theorem perform_component_inline (hid : Nameable id)
    (hfind : context.document.schemas.find? id = some (.inline schema))
    (hlive : state.cancelled = false) (hfree : state.repository.contains id = false)
    (hnew : state.memo.contains id = false) (hint : ModelName) :
    (Request.component id (.inline schema)).perform context state =
      (Request.schema (.reference (schemaReference id)) hint).perform context state := by
  have hnone : state.memo.find? id = none := by simpa [OrderedMap.contains] using hnew
  have hown : (Request.component id (.inline schema)).perform context state = _ :=
    resolveComponent_apply_of_new context (.inline schema) hfree hnew
  have hnode : resolveNode context (followReference context [id]) (.inline schema) id false state =
      resolveSchema context (followReference context [id]) schema id false state := by
    rw [resolveNode, Resolver.unlessCancelled_apply _ hlive]
  have hfollow : resolve context (.reference (schemaReference id)) hint state =
      (do
        let resolution ← resolveSchema context (followReference context [id]) schema id false
        Resolver.memoise id resolution
        return resolution : Resolver Resolution) state := by
    rw [resolve, resolveNode, Resolver.unlessCancelled_apply _ hlive,
      followReference_apply_of_new hid.componentName_eq hnone List.not_mem_nil,
      Document.findSchema_of_inline hid hfind]
  rw [hown, Request.perform]
  cases hschema : resolveSchema context (followReference context [id]) schema id false state with
  | ok resolution after =>
    have hreference : resolve context (.reference (schemaReference id)) hint state =
        .ok resolution (after.memoise id resolution) :=
      hfollow.trans (Resolver.bind_apply_of_ok hschema)
    rw [Resolver.bind_apply_of_ok (hnode.trans hschema), Resolver.bind_apply_of_ok hreference]
    rfl
  | error abort after =>
    have hreference : resolve context (.reference (schemaReference id)) hint state =
        .error abort after := hfollow.trans (Resolver.bind_apply_of_error hschema)
    rw [Resolver.bind_apply_of_error (hnode.trans hschema),
      Resolver.bind_apply_of_error hreference]

/-! ## Aliases -/

/-- A registration of a name that is taken changes nothing. -/
theorem register_of_contained {cancelAt : Option Nat} {model : Model}
    (h : state.repository.contains model.name = true) : state.register cancelAt model = state := by
  rw [ResolverState.register, Repository.register, dif_pos h]
  simp

/-- Registrations of names that are taken change nothing. -/
theorem registerAll_of_contained {cancelAt : Option Nat} {models : List Model}
    (h : ∀ model ∈ models, state.repository.contains model.name = true) :
    state.registerAll cancelAt models = state := by
  induction models with
  | nil => rfl
  | cons model rest ih =>
    show (state.register cancelAt model).registerAll cancelAt rest = state
    rw [register_of_contained (h model List.mem_cons_self)]
    exact ih fun other hother => h other (List.mem_cons_of_mem _ hother)

/-- **The two ways into an alias of a flat schema agree**, provided that the component that it names
was not resolved with failure. -/
theorem agree_of_isFlat (hid : Nameable id)
    (hfind : context.document.schemas.find? id = some (.reference target))
    (hlive : state.cancelled = false) (hfree : state.repository.contains id = false)
    (hnew : state.memo.contains id = false) (hbefore : context.document.Provenance state)
    (hfound : context.document.findSchema (schemaReference id) = .ok (.ok schema))
    (hflat : schema.IsFlat) {other : String} (hname : componentName target = .ok (some other))
    (hmemo : ∀ resolution, state.memo.find? other = some resolution →
      resolution.succeeded = true) :
    Request.Agree context (.component id (.reference target))
      (.schema (.reference (schemaReference id)) hint) state := by
  have hnone : state.memo.find? id = none := by simpa [OrderedMap.contains] using hnew
  have htarget := Document.findSchema_of_alias hid hfind hfound
  have hreference : Runs context [] (.atNode (.reference (schemaReference id)) hint false) state _
      _ :=
    .entered hlive hid.componentName_eq hnone List.not_mem_nil hfound
      (runs_of_isFlat context [id] hflat id state)
  rw [agree_iff_runs hfree hnew]
  cases hother : state.memo.find? other with
  | some resolution =>
    have hcomes := hbefore other resolution schema hother (standsFor_of_findSchema hname htarget)
    obtain rfl := hcomes.eq_of_isFlat hflat (hmemo resolution hother)
    have hsame : state.registerAll context.cancelAt (schema.types.primitives.map .primitive) =
        state := by
      refine registerAll_of_contained fun model hmodel => ?_
      obtain ⟨kind, hkind, rfl⟩ := List.mem_map.1 hmodel
      exact hcomes.registered hflat _ (List.mem_map.2 ⟨kind, hkind, rfl⟩)
    refine ⟨_, state, _, .finished hlive hname hother, hreference, ?_, ?_⟩
    · rw [ResolverState.repository_memoise, hsame]
    · rw [ResolverState.diagnostics_memoise, hsame]
  | none =>
    have hne := Document.ne_of_alias hid hfind hfound hname
    refine ⟨_, _, _, .entered hlive hname hother (by simpa using hne) htarget
      (runs_of_isFlat context [other, id] hflat other state), hreference, ?_, ?_⟩
    · rw [ResolverState.repository_memoise, ResolverState.repository_memoise]
    · rw [ResolverState.diagnostics_memoise, ResolverState.diagnostics_memoise]

/-- A reference to an alias that leads nowhere is not reported in the same way when the alias is
resolved by itself. -/
theorem diagnostics_ne_of_missing (hid : Nameable id)
    (hfind : context.document.schemas.find? id = some (.reference target))
    {error : ReferenceError}
    (hmissing : context.document.findSchema (schemaReference id) = .ok (.error error))
    (hlive : state.cancelled = false) {own : ResolverState}
    (hown : Runs context [id] (.atNode (.reference target) id false) state .failed own) :
    own.diagnostics ≠ state.diagnostics ++
      [.unresolvedReference hint (schemaReference id) error.message] := by
  intro hsame
  have htarget := Document.findSchema_of_alias hid hfind hmissing
  cases hown with
  | cancelled hcancelled =>
    rw [hlive] at hcancelled
    cases hcancelled
  | refused _ hname =>
    simp only [ResolverState.diagnostics_record, List.append_cancel_left_eq, List.cons.injEq,
      Diagnostic.unresolvedReference.injEq] at hsame
    rw [hsame.1.2.1, hid.componentName_eq] at hname
    cases hname
  | finished => simp at hsame
  | missing _ hname _ hactive =>
    simp only [ResolverState.diagnostics_record, List.append_cancel_left_eq, List.cons.injEq,
      Diagnostic.unresolvedReference.injEq] at hsame
    rw [hsame.1.2.1, hid.componentName_eq] at hname
    cases hname
    exact hactive List.mem_cons_self
  | entered _ _ _ _ hfound =>
    rw [htarget] at hfound
    cases hfound

/-- An alias that is resolved by itself is answered without references, and not as a schema that
says nothing, or else with what its schema denotes under another id. -/
theorem Runs.alias_cases (hid : Nameable id)
    (hfind : context.document.schemas.find? id = some (.reference target))
    (hfound : context.document.findSchema (schemaReference id) = .ok (.ok schema))
    (hlive : state.cancelled = false) (hnew : state.memo.find? id = none)
    (hbefore : context.document.Provenance state) {resolution : Resolution} {own : ResolverState}
    (h : Runs context [id] (.atNode (.reference target) id false) state resolution own) :
    (resolution.references = [] ∧ own.diagnostics ≠ state.diagnostics ++ [.missingType id]) ∨
      ∃ other around, componentName target = .ok (some other) ∧
        (∀ found, state.memo.find? other = some found → found = resolution) ∧ id ≠ around ∧
        resolution.references = schema.denoted around false ∧ resolution.references ≠ [] := by
  have htarget := Document.findSchema_of_alias hid hfind hfound
  cases h with
  | cancelled hcancelled =>
    rw [hlive] at hcancelled
    cases hcancelled
  | refused => exact .inl ⟨rfl, by simp⟩
  | finished _ hname hmemo =>
    by_cases hnothing : resolution.references = []
    · exact .inl ⟨hnothing, by simp⟩
    rcases (hbefore _ _ _ hmemo (standsFor_of_findSchema hname htarget)).origin with
      rfl | ⟨around, haround, hreferences⟩
    · exact absurd rfl hnothing
    · refine .inr ⟨_, around, hname, fun found hother => ?_, ?_, hreferences, hnothing⟩
      · rw [hmemo] at hother
        exact (Option.some.inj hother).symm
      · rintro rfl
        rw [OrderedMap.contains, hnew] at haround
        cases haround
  | busy _ hname _ hactive =>
    exact absurd (List.mem_singleton.1 hactive) (Document.ne_of_alias hid hfind hfound hname)
  | missing _ _ _ _ hmissing =>
    rw [htarget] at hmissing
    cases hmissing
  | @entered _ _ _ _ other _ _ _ after _ hname hmemo _ hentered hrun =>
    have hne := Document.ne_of_alias hid hfind hfound hname
    rw [htarget] at hentered
    cases hentered
    rcases hrun.answer_cases with ⟨rfl, rfl⟩ | ⟨hreferences, hsaid⟩
    · exact .inl ⟨rfl, by simpa using hne⟩
    · refine .inr ⟨other, other, hname, fun found hother => ?_, hne.symm, hreferences, hsaid⟩
      rw [hmemo] at hother
      cases hother

/-- **The two ways into an alias agree only if its schema is flat**, and if the component that it
names was not resolved with failure.

**Proof sketch.** By a reference the alias is resolved under its own id. By itself it is resolved
under the id of the component that it names, or to what came of a finished component, and only flat
schemas denote the same under different ids. What is reported of a schema that says nothing, or of a
reference that leads nowhere, tells where it was met. -/
theorem isFlat_of_agree (hid : Nameable id)
    (hfind : context.document.schemas.find? id = some (.reference target))
    (hlive : state.cancelled = false) (hfree : state.repository.contains id = false)
    (hnew : state.memo.contains id = false) (hbefore : context.document.Provenance state)
    (h : Request.Agree context (.component id (.reference target))
      (.schema (.reference (schemaReference id)) hint) state) :
    ∃ schema other, context.document.findSchema (schemaReference id) = .ok (.ok schema) ∧
      schema.IsFlat ∧ componentName target = .ok (some other) ∧
      ∀ resolution, state.memo.find? other = some resolution → resolution.succeeded = true := by
  have hnone : state.memo.find? id = none := by simpa [OrderedMap.contains] using hnew
  obtain ⟨resolution, own, other, hown, hreference, -, hdiagnostics⟩ :=
    (agree_iff_runs hfree hnew).1 h
  cases hreference with
  | cancelled hcancelled =>
    rw [hlive] at hcancelled
    cases hcancelled
  | refused _ hname =>
    rw [hid.componentName_eq] at hname
    cases hname
  | finished _ hname hmemo =>
    rw [hid.componentName_eq] at hname
    cases hname
    rw [hnone] at hmemo
    cases hmemo
  | busy _ _ _ hactive => cases hactive
  | missing _ _ _ _ hmissing =>
    exact absurd hdiagnostics.symm (diagnostics_ne_of_missing hid hfind hmissing hlive hown)
  | @entered _ _ _ _ entered schema _ _ after _ hname _ _ hfound hrun =>
    rw [hid.componentName_eq] at hname
    cases hname
    rw [ResolverState.diagnostics_memoise] at hdiagnostics
    rcases hrun.answer_cases with ⟨rfl, rfl⟩ | ⟨hreferences, hsaid⟩ <;>
      rcases hown.alias_cases hid hfind hfound hlive hnone hbefore with
        ⟨hnothing, hreported⟩ | ⟨other, around, hname, hmemo, hne, haround, hsaid'⟩
    · exact absurd hdiagnostics.symm hreported
    · exact absurd rfl hsaid'
    · exact absurd hnothing hsaid
    · rw [hreferences] at haround hsaid
      have hflat := Schema.isFlat_of_denoted_eq haround hsaid hne
      refine ⟨schema, other, hfound, hflat, hname, fun found hother => ?_⟩
      rw [hmemo found hother, (hrun.unique (runs_of_isFlat context [id] hflat id state)).1]

/-- **In which sessions and for which components the two ways agree.** A component that is written
in place is resolved in the same way whether it is asked for by itself or referred to under any
hint: with the same answer and the same state, or the same abort. For an alias the two ways give the
same resolution, models and diagnostics exactly if it stands for a flat schema, and is a reference
within the document to a component that has not failed before. A component that no reference can
name is not resolved by one.

**Proof sketch.** `perform_component_inline`; `agree_of_isFlat` and `isFlat_of_agree`, with the
provenance of the memo from `provenance_of_session`. -/
theorem entrances_of_session {turns : List Turn} (h : Session context turns state)
    (hlive : state.cancelled = false)
    (hfind : context.document.schemas.find? id = some node)
    (hfree : state.repository.contains id = false) (hnew : state.memo.contains id = false)
    (hint : ModelName) :
    (Nameable id → ∀ schema, node = .inline schema →
      (Request.component id node).perform context state =
        (Request.schema (.reference (schemaReference id)) hint).perform context state) ∧
    (Nameable id → (∀ turn ∈ turns, turn.request.FromDocument context.document) →
      ∀ target, node = .reference target →
        (Request.Agree context (.component id node)
            (.schema (.reference (schemaReference id)) hint) state ↔
          ∃ schema other, context.document.findSchema (schemaReference id) = .ok (.ok schema) ∧
            schema.IsFlat ∧ componentName target = .ok (some other) ∧
            ∀ resolution, state.memo.find? other = some resolution →
              resolution.succeeded = true)) ∧
    (¬ Nameable id → (Request.schema (.reference (schemaReference id)) hint).perform context state =
      .error (.malformedReference (schemaReference id)) state) := by
  refine ⟨?_, ?_, fun hid => ?_⟩
  · rintro hid schema rfl
    exact perform_component_inline hid hfind hlive hfree hnew hint
  · rintro hid hdocument target rfl
    have hbefore := provenance_of_session h hdocument
    constructor
    · exact isFlat_of_agree hid hfind hlive hfree hnew hbefore
    · rintro ⟨schema, other, hfound, hflat, hname, hmemo⟩
      exact agree_of_isFlat hid hfind hlive hfree hnew hbefore hfound hflat hname hmemo
  · refine Resolver.bind_apply_of_error ?_
    rw [resolve, resolveNode, Resolver.unlessCancelled_apply _ hlive,
      followReference_of_error _ _ _ _ (componentName_of_not_nameable hid)]
    rfl

end Entrances

/-! ## Two aliases -/

/-- The alias `A` of an object, and the alias `T` of a text. -/
def twoAliases : Document :=
  .ofSchemas [
    ("A", .reference "#/components/schemas/B"),
    ("B", .inline { types := .ofList [.object] }),
    ("S", .inline { types := .ofList [.string] }),
    ("T", .reference "#/components/schemas/S")]

/-- The two ways into `B` are the same, and those into `T` agree. -/
theorem entrances_twoAliases :
    (∀ hint, (Request.component "B" (.inline { types := .ofList [.object] })).perform
        ⟨twoAliases, none⟩ {} =
      (Request.schema (.reference (schemaReference "B")) hint).perform ⟨twoAliases, none⟩ {}) ∧
    ∀ hint, Request.Agree ⟨twoAliases, none⟩ (.component "T" (.reference "#/components/schemas/S"))
      (.schema (.reference (schemaReference "T")) hint) {} := by
  have hsession : Session ⟨twoAliases, none⟩ [] {} := .start ∅
  refine ⟨fun hint => ?_, fun hint => ?_⟩
  · exact (entrances_of_session hsession rfl rfl rfl rfl hint).1 ⟨rfl, rfl⟩ _ rfl
  · have hS : twoAliases.schemas.find? "S" = some (.inline { types := .ofList [.string] }) := rfl
    have hfound : twoAliases.findSchema (schemaReference "T") =
        .ok (.ok { types := .ofList [.string] }) :=
      Document.findSchema_alias_of_inline ⟨rfl, rfl⟩ rfl ⟨rfl, rfl⟩ hS
    exact ((entrances_of_session hsession rfl rfl rfl rfl hint).2.1 ⟨rfl, rfl⟩
      (fun _ hturn => absurd hturn List.not_mem_nil) _ rfl).2
      ⟨_, "S", hfound, ⟨rfl, rfl, rfl, rfl, rfl⟩, rfl, fun _ h => nomatch h⟩

/-- **The two ways into `A` differ**: by itself it is resolved to the object `B`, by a reference to
an object of its own name. -/
theorem entrances_differ_twoAliases :
    ∃ own other,
      (Request.component "A" (.reference "#/components/schemas/B")).perform ⟨twoAliases, none⟩ {} =
        .ok (some ⟨["B"], true⟩) own ∧
      (Request.schema (.reference "#/components/schemas/A") "A").perform ⟨twoAliases, none⟩ {} =
        .ok (some ⟨["A"], true⟩) other ∧
      own.repository.names = ["B"] ∧ other.repository.names = ["A"] := by
  have hobject : ∀ active id, Runs ⟨twoAliases, none⟩ active
      (.atSchema { types := .ofList [.object] } id false) {} ⟨[id], true⟩
      (({} : ResolverState).register none (.object id ∅)) := by
    intro active id
    have hrun : Runs ⟨twoAliases, none⟩ active (.atSchema { types := .ofList [.object] } id false)
        {} ⟨Schema.references { types := .ofList [.object] } id false,
          ({} : PropertyResult).succeeded && true⟩
        (({} : ResolverState).register none (.object id ({} : PropertyResult).properties)) :=
      .typed rfl rfl (.object rfl rfl .allProperties rfl) (.noArray rfl)
    exact hrun
  have hB : twoAliases.schemas.find? "B" = some (.inline { types := .ofList [.object] }) := rfl
  have hA : twoAliases.findSchema (schemaReference "A") =
      .ok (.ok { types := .ofList [.object] }) :=
    Document.findSchema_alias_of_inline ⟨rfl, rfl⟩ rfl ⟨rfl, rfl⟩ hB
  have hown : Runs ⟨twoAliases, none⟩ ["A"]
      (.atNode (.reference "#/components/schemas/B") "A" false) {} ⟨["B"], true⟩ _ :=
    .entered rfl rfl rfl (by decide) (Document.findSchema_of_inline ⟨rfl, rfl⟩ hB)
      (hobject ["B", "A"] "B")
  have hother : Runs ⟨twoAliases, none⟩ []
      (.atNode (.reference "#/components/schemas/A") "A" false) {} ⟨["A"], true⟩ _ :=
    .entered rfl rfl rfl List.not_mem_nil hA (hobject ["A"] "A")
  exact ⟨_, _, (perform_component_iff rfl rfl).2 ⟨_, hown, rfl⟩, perform_schema_iff.2 hother, rfl,
    rfl⟩

end ApiCatalog
