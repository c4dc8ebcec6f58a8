import ApiCatalog.Proofs.Document.Aliases
import ApiCatalog.Proofs.Resolution.Progress

set_option autoImplicit false

/-!
# Nested components

The components that are entered one inside another are pairwise distinct, so they are nested no
deeper than the document has components; inside each the walk goes to smaller and smaller parts of
its schema until it comes to the reference to the next. If aliases end, resolution therefore ends,
with an answer or at a malformed reference.

## Main definitions

* `ApiCatalog.Nests`: a frame is reached from another one, and these are the components entered on
  the way.

## Main results

* `ApiCatalog.Nests.bounded`: nested components are distinct components of the document.
* `ApiCatalog.Enters.hasPart`: from one component to the next, the walk goes down in one schema.
* `ApiCatalog.terminates_of_aliasesEnd`: resolution ends, whatever cycles the components form.
-/

namespace ApiCatalog

/-! ## Nesting -/

/-- The calls of one frame come to another, and `ids` are the components entered on the way, the
last one first. -/
inductive Nests (context : Context) (start : Frame) : List String → Frame → Prop
  | start : Nests context start [] start
  | descend {ids : List String} {caller callee : Frame} (h : Nests context start ids caller)
      (hcall : Descends context caller callee) : Nests context start ids callee
  | enter {ids : List String} {id : String} {caller callee : Frame}
      (h : Nests context start ids caller) (hcall : Enters context id caller callee) :
      Nests context start (id :: ids) callee

/-- **Nested components are distinct components of the document**, and none was active before.

**Proof sketch.** Induction along the calls: the components that are active are those entered on the
way and those active before, and only a component that is not active is entered. -/
theorem Nests.bounded {context : Context} {start frame : Frame} {ids : List String}
    (h : Nests context start ids frame) :
    frame.active = ids ++ start.active ∧ ids.Nodup ∧ ids ⊆ context.document.schemaIds ∧
      ∀ id ∈ ids, id ∉ start.active := by
  induction h with
  | start => exact ⟨rfl, List.nodup_nil, List.nil_subset _, fun _ hmem => nomatch hmem⟩
  | descend _ hcall ih =>
    rw [hcall.active_eq]
    exact ih
  | enter _ hcall ih =>
    obtain ⟨hactive, hnodup, hsubset, hfresh⟩ := ih
    obtain ⟨hentered, hnew, hid⟩ := hcall.active_eq
    rw [hactive, List.mem_append, not_or] at hnew
    refine ⟨by rw [hentered, hactive, List.cons_append], List.nodup_cons.2 ⟨hnew.1, hnodup⟩,
      List.cons_subset.2 ⟨hid, hsubset⟩, ?_⟩
    intro other hother
    rcases List.mem_cons.1 hother with rfl | hother
    · exact hnew.2
    · exact hfresh other hother

/-- Components are nested no deeper than the document has components. -/
theorem Nests.length_le {context : Context} {start frame : Frame} {ids : List String}
    (h : Nests context start ids frame) : ids.length ≤ context.document.schemaIds.length := by
  obtain ⟨-, hnodup, hsubset, -⟩ := h.bounded
  exact hnodup.length_le_of_subset hsubset

/-! ## Between two components -/

/-- Descents stay within a schema. -/
theorem partOf_of_descends {context : Context} {caller callee : Frame} {whole : Schema}
    (h : Relation.ReflTransGen (Descends context) caller callee)
    (hpart : caller.stage.PartOf whole) : callee.stage.PartOf whole := by
  induction h with
  | refl => exact hpart
  | tail _ hcall ih => exact hcall.partOf ih

/-- **From one component to the next, the walk goes down in one schema**: the reference to the next
component is a proper part of the schema that was entered.

**Proof sketch.** The walk of an entered component begins at its schema. Descents stay within that,
and the stage at a reference is about a proper part. -/
theorem Enters.hasPart {context : Context} {id next : String} {outer entered last inner : Frame}
    (henter : Enters context id outer entered)
    (hdescends : Relation.ReflTransGen (Descends context) entered last)
    (hnext : Enters context next last inner) :
    ∃ target schema, componentName target = .ok (some next) ∧
      entered = ⟨id :: outer.active, .atSchema schema id false, outer.state⟩ ∧
      (∃ hint nullable, last = ⟨entered.active, .atNode (.reference target) hint nullable,
        last.state⟩) ∧
      schema.HasPart (.reference target) := by
  cases henter with
  | @enter active _ _ _ schema state =>
    have hpart : last.stage.PartOf schema := partOf_of_descends hdescends (.inl rfl)
    have hactive : last.active = id :: active := by
      clear hnext hpart
      induction hdescends with
      | refl => rfl
      | tail _ hcall ih => exact hcall.active_eq.trans ih
    cases hnext with
    | @enter active' target hint nullable _ state' _ hname =>
      obtain rfl : active' = id :: active := hactive
      exact ⟨target, schema, hname, rfl, ⟨hint, nullable, rfl⟩, hpart⟩

/-! ## Resolution ends -/

/-- A union of which it cannot be told whether it admits null has a member that cannot be looked
up. -/
theorem offersNull_error_cases {document : Document} {kind : CompositionKind}
    {members : List Node} {abort : Abort} (h : offersNull document kind members = .error abort) :
    kind = .anyOf ∧ ∃ target, .reference target ∈ members ∧
      document.findSchema target = .error abort := by
  cases kind with
  | oneOf => cases h
  | allOf => cases h
  | anyOf =>
    refine ⟨rfl, ?_⟩
    rw [offersNull] at h
    induction members with
    | nil => cases h
    | cons member rest ih =>
      rw [anyAdmitsNull] at h
      split at h
      · next habort =>
        cases h
        cases member with
        | inline schema => cases habort
        | reference target =>
          refine ⟨target, List.mem_cons_self, ?_⟩
          rw [admitsNull] at habort
          split at habort
          · next hschema =>
            cases habort
            exact hschema
          · cases habort
          · cases habort
      · cases h
      · obtain ⟨target, hmem, htarget⟩ := ih h
        exact ⟨target, List.mem_cons_of_mem _ hmem, htarget⟩

/-- If aliases end, a frame that cannot be carried on is at a malformed reference. -/
theorem Breaks.malformed {context : Context} {frame : Frame} {abort : Abort}
    (hends : AliasesEnd .schema context.document.schemas) (h : Breaks context frame abort) :
    ∃ path, Reference.ofPath? path = none ∧ abort = .malformedReference path := by
  cases h with
  | nameless _ hname => exact ⟨_, componentName_eq_error hname⟩
  | astray _ _ _ _ hfound =>
    obtain ⟨last, -, hlast⟩ := lookUp_error_cases hends hfound
    exact ⟨last, hlast⟩
  | union _ hoffered =>
    obtain ⟨-, target, -, hfound⟩ := offersNull_error_cases hoffered
    obtain ⟨last, -, hlast⟩ := lookUp_error_cases hends hfound
    exact ⟨last, hlast⟩

/-- A step ends: it answers, or ends the extraction at a malformed reference. -/
def Resolver.Concludes {α : Type} (step : Resolver α) (state : ResolverState) : Prop :=
  (∃ answer state', step state = .ok answer state') ∨
    ∃ path state', step state = .error (.malformedReference path) state' ∧
      Reference.ofPath? path = none

/-- If aliases end, every frame ends. -/
theorem concludes_of_aliasesEnd {context : Context}
    (hends : AliasesEnd .schema context.document.schemas) (frame : Frame) :
    (frame.step context).Concludes frame.state := by
  rcases settled context frame with ⟨answer, state', hrun⟩ | ⟨abort, hhalts⟩
  · exact .inl ⟨answer, state', hrun.step_eq_ok⟩
  · obtain ⟨state', h⟩ := aborts_iff_halts.2 hhalts
    obtain ⟨last, -, hbreaks⟩ := hhalts
    obtain ⟨path, hpath, rfl⟩ := hbreaks.malformed hends
    exact .inr ⟨path, state', h, hpath⟩

/-- A component that is neither registered nor finished is resolved as a node and memoised. -/
theorem resolveComponent_apply_of_new (context : Context) {id : String} (node : Node)
    {state : ResolverState} (hname : state.repository.contains id = false)
    (hmemo : state.memo.contains id = false) :
    resolveComponent context id node state =
      (do
        let resolution ← resolveNode context (followReference context [id]) node id false
        Resolver.memoise id resolution
        return some resolution : Resolver (Option Resolution)) state := by
  rw [resolveComponent, Resolver.bind_apply_of_ok Resolver.get_apply]
  exact congrFun (if_neg (by simp [Naming.component, hname, hmemo])) state

/-- Only a component that is neither registered nor finished ends the extraction, as its node
does. -/
theorem resolveComponent_error {context : Context} {id : String} {node : Node}
    {state state' : ResolverState} {abort : Abort}
    (h : resolveComponent context id node state = .error abort state') :
    state.repository.contains id = false ∧ state.memo.contains id = false ∧
      resolveNode context (followReference context [id]) node id false state =
        .error abort state' := by
  by_cases hknown : state.repository.contains id = true ∨ state.memo.contains id = true
  · rw [resolveComponent_of_known hknown] at h
    cases h
  · simp only [not_or, Bool.not_eq_true] at hknown
    rw [resolveComponent_apply_of_new context node hknown.1 hknown.2] at h
    rcases Resolver.bind_eq_error_iff.1 h with hnode | ⟨resolution, s, -, hrest⟩
    · exact ⟨hknown.1, hknown.2, hnode⟩
    · cases hrest

/-- If aliases end, the resolution of a component ends. -/
theorem resolveComponent_concludes {context : Context}
    (hends : AliasesEnd .schema context.document.schemas) (id : String) (node : Node)
    (state : ResolverState) : (resolveComponent context id node).Concludes state := by
  by_cases hknown : state.repository.contains id = true ∨ state.memo.contains id = true
  · exact .inl ⟨none, state, resolveComponent_of_known hknown⟩
  · simp only [not_or, Bool.not_eq_true] at hknown
    have hstep := resolveComponent_apply_of_new context node hknown.1 hknown.2
    rcases concludes_of_aliasesEnd hends ⟨[id], .atNode node id false, state⟩ with
      ⟨resolution, state', h⟩ | ⟨path, state', h, hpath⟩
    · refine .inl ⟨some resolution, state'.memoise id resolution, ?_⟩
      exact hstep.trans (Resolver.bind_apply_of_ok h)
    · exact .inr ⟨path, state', hstep.trans (Resolver.bind_apply_of_error h), hpath⟩

/-- **Resolution ends, whatever cycles the components form**, if aliases do: from every state, a
node and a component are resolved or come to a malformed reference. There is an end to the calls
that the walk makes. The components that are nested in each other at any moment are distinct
components of the document, so there are no more of them than the document has; each descent goes to
something smaller, and the reference to the next component is a proper part of the schema of the
one before.

**Proof sketch.** `wellFounded_calls` and `Nests.bounded`; a frame that does not answer comes to one
that cannot be carried on (`settled`), which is at a malformed reference since aliases end. -/
theorem terminates_of_aliasesEnd (context : Context)
    (hends : AliasesEnd .schema context.document.schemas) :
    (∀ node hint state, (resolve context node hint).Concludes state) ∧
    (∀ id node state, (resolveComponent context id node).Concludes state) ∧
    (WellFounded fun callee caller => Calls context caller callee) ∧
    (∀ start ids frame, Nests context start ids frame →
      frame.active = ids ++ start.active ∧ ids.Nodup ∧ ids ⊆ context.document.schemaIds ∧
        (∀ id ∈ ids, id ∉ start.active) ∧ ids.length ≤ context.document.schemaIds.length) ∧
    (∀ caller callee, Descends context caller callee →
      callee.stage.size < caller.stage.size) ∧
    ∀ id next outer entered last inner, Enters context id outer entered →
      Relation.ReflTransGen (Descends context) entered last → Enters context next last inner →
      ∃ target schema, componentName target = .ok (some next) ∧
        entered = ⟨id :: outer.active, .atSchema schema id false, outer.state⟩ ∧
        (∃ hint nullable, last = ⟨entered.active, .atNode (.reference target) hint nullable,
          last.state⟩) ∧
        schema.HasPart (.reference target) ∧
        sizeOf (OrReference.reference target : Node) < sizeOf schema := by
  refine ⟨?_, ?_, wellFounded_calls context, ?_, fun _ _ hcall => hcall.size_lt, ?_⟩
  · exact fun node hint state => concludes_of_aliasesEnd hends ⟨[], .atNode node hint false, state⟩
  · exact resolveComponent_concludes hends
  · intro start ids frame h
    obtain ⟨hactive, hnodup, hsubset, hfresh⟩ := h.bounded
    exact ⟨hactive, hnodup, hsubset, hfresh, h.length_le⟩
  · intro id next outer entered last inner henter hdescends hnext
    obtain ⟨target, schema, hname, hentered, hlast, hpart⟩ := henter.hasPart hdescends hnext
    exact ⟨target, schema, hname, hentered, hlast, hpart, hpart.size_lt⟩

/-- Animals whose friends are animals, by way of an alias. -/
def herd : Document :=
  .ofSchemas [
    ("Animal", .inline { types := .ofList [.object],
                         properties := [("friends", .reference "#/components/schemas/Friends")] }),
    ("Companion", .reference "#/components/schemas/Animal"),
    ("Friends", .inline { types := .ofList [.array],
                          items := some (.each (.reference "#/components/schemas/Companion")) })]

/-- A cycle of three components, one of them an alias. -/
theorem terminates_herd :
    AliasesEnd .schema herd.schemas ∧
      (resolve ⟨herd, none⟩ (.reference "#/components/schemas/Companion") "x").Concludes {} ∧
      (resolveComponent ⟨herd, none⟩ "Friends"
        (.reference "#/components/schemas/Friends")).Concludes {} ∧
      ∀ start ids frame, Nests ⟨herd, none⟩ start ids frame → ids.Nodup ∧ ids.length ≤ 3 := by
  have hends : AliasesEnd .schema herd.schemas :=
    aliasesEnd_of_rank (fun id => if id = "Companion" then 1 else 0) (by decide)
  obtain ⟨hresolve, hcomponent, -, hnests, -, -⟩ := terminates_of_aliasesEnd ⟨herd, none⟩ hends
  refine ⟨hends, hresolve _ _ _, hcomponent _ _ _, fun start ids frame h => ?_⟩
  obtain ⟨-, hnodup, -, -, hlength⟩ := hnests start ids frame h
  exact ⟨hnodup, hlength⟩

end ApiCatalog
