import ApiCatalog.Proofs.Document.Declarations
import ApiCatalog.Proofs.Resolution.Growth
import ApiCatalog.Proofs.Resolution.Parts

set_option autoImplicit false

/-!
# Resolutions that are cut short

One resolution is compared with the same one that is cancelled when a certain number of models is
reached. Both do the same until then. From there on, the one that is cut short registers what the
complete one would register next anyway, and abandons the rest; only the compositions around the
place where it was cancelled are registered still, with the members that were resolved.

## Main definitions

* `Document.Contains`: the nodes that occur in a document.
* `ResolverState.InStep`: a cut resolution has done the same as the complete one.
* `Document.BreaksOff`: a cut resolution has registered the same as the complete one up to some
  point, and unfinished compositions after that.
* `ApiCatalog.Lost`: an answer that is given after a cancellation.
* `Stage.CutShort`: a stage is answered in step with a complete resolution, or breaks off.

## Main results

* `ApiCatalog.Runs.cut`: a complete run has a cut one beside it.
* `ApiCatalog.Runs.eq_or_breaksOff`: from the same state, the cut run is the same or breaks off.
-/

namespace ApiCatalog

/-! ## What occurs in a document -/

/-- The nodes that occur in a document: the schemas that its paths ask for, its components, and the
parts of these. -/
inductive Document.Contains (document : Document) : Node → Prop
  | request {name : ModelName} {node : Node} (hrequest : (name, node) ∈ document.requests) :
      Contains document node
  | component {id : String} {node : Node} (hfind : document.schemas.find? id = some node) :
      Contains document node
  | member {schema : Schema} {kind : CompositionKind} {members : List Node} {node : Node}
      (hschema : Contains document (.inline schema))
      (hshape : schema.composition? = some (kind, members)) (hnode : node ∈ members) :
      Contains document node
  | property {schema : Schema} {name : String} {node : Node}
      (hschema : Contains document (.inline schema)) (hnode : (name, node) ∈ schema.properties) :
      Contains document node
  | items {schema : Schema} {node : Node} (hschema : Contains document (.inline schema))
      (hnode : schema.items = some (.each node)) : Contains document node

/-- What a reference leads to occurs in the document. -/
theorem Document.contains_of_findSchema {document : Document} {target id : String}
    {schema : Schema} (hid : componentName target = .ok (some id))
    (h : document.findSchema target = .ok (.ok schema)) : document.Contains (.inline schema) := by
  obtain ⟨last, -, hfind⟩ := (standsFor_of_findSchema hid h).exists_reflTransGen
  exact .component hfind

/-- What a stage is about occurs in a document. -/
def Stage.Within (document : Document) {kind : StageKind} : Stage kind → Prop
  | .atNode node _ _ => document.Contains node
  | .atSchema schema _ _ => document.Contains (.inline schema)
  | .atMembers _ members _ _ _ => ∀ member ∈ members, document.Contains member
  | .atProperties _ properties _ _ => ∀ entry ∈ properties, document.Contains entry.2
  | .atObject schema _ => document.Contains (.inline schema)
  | .atArray schema _ => document.Contains (.inline schema)

/-! ## Two states in step -/

/-- A resolution that is to be cancelled at `limit` models has done the same as a complete one: it
is in the same state, or it was cancelled and has the same models. -/
def ResolverState.InStep (limit : Nat) (complete cut : ResolverState) : Prop :=
  cut = complete ∨ (cut.cancelled = true ∧ cut.repository = complete.repository ∧
    limit ≤ complete.repository.size)

namespace ResolverState.InStep

variable {limit : Nat} {complete cut : ResolverState}

/-- The models are the same. -/
theorem repository (h : complete.InStep limit cut) : cut.repository = complete.repository := by
  rcases h with rfl | ⟨-, hrepository, -⟩
  · rfl
  · exact hrepository

/-- Unless the cut resolution was cancelled, the states are the same. -/
theorem eq_of_not_cancelled (h : complete.InStep limit cut) (hcut : cut.cancelled = false) :
    cut = complete := by
  rcases h with rfl | ⟨hcancelled, -, -⟩
  · rfl
  · rw [hcut] at hcancelled
    cases hcancelled

/-- The registration of a model keeps both in step, though it may cancel one of them. -/
theorem register (h : complete.InStep limit cut) (model : Model) :
    (complete.register none model).InStep limit (cut.register (some limit) model) := by
  rcases h with rfl | ⟨hcancelled, hrepository, hlimit⟩
  · by_cases hstrikes : ((cut.repository.register model).1 &&
        decide (limit = (cut.repository.register model).2.size)) = true
    · refine .inr ⟨?_, rfl, ?_⟩
      · simp only [ResolverState.register, Option.some.injEq, hstrikes, Bool.or_true]
      · exact Nat.le_of_eq (of_decide_eq_true (Bool.and_eq_true_iff.1 hstrikes).2)
    · refine .inl ?_
      rw [Bool.not_eq_true] at hstrikes
      simp [ResolverState.register, hstrikes]
  · refine .inr ⟨by simp [ResolverState.register, hcancelled], by simp [hrepository], ?_⟩
    exact Nat.le_trans hlimit Repository.prefix_register.length_le

/-- The registration of several models keeps both in step. -/
theorem registerAll (h : complete.InStep limit cut) (models : List Model) :
    (complete.registerAll none models).InStep limit (cut.registerAll (some limit) models) := by
  induction models generalizing complete cut with
  | nil => exact h
  | cons model rest ih => exact ih (h.register model)

/-- Diagnostics keep both in step. -/
theorem record (h : complete.InStep limit cut) (diagnostic : Diagnostic) :
    (complete.record diagnostic).InStep limit (cut.record diagnostic) := by
  rcases h with rfl | h
  · exact .inl rfl
  · exact .inr h

/-- Memoisation keeps both in step. -/
theorem memoise (h : complete.InStep limit cut) (id : ModelName) (resolution : Resolution) :
    (complete.memoise id resolution).InStep limit (cut.memoise id resolution) := by
  rcases h with rfl | h
  · exact .inl rfl
  · exact .inr (by simpa using h)

end ResolverState.InStep

/-! ## States that a cancellation has set apart -/

/-- A composition of the document whose members need not all be there; a complete resolution has
registered its name. -/
def Document.Unfinished (document : Document) (complete : Repository) (model : Model) : Prop :=
  ∃ schema kind members name references, document.Contains (.inline schema) ∧
    schema.composition? = some (kind, members) ∧ model = .composition name kind references ∧
    complete.contains name = true

/-- A resolution that is cancelled at `limit` models has registered what a complete one registers,
up to some point that is not before the limit, and unfinished compositions after that. -/
def Document.BreaksOff (document : Document) (limit : Nat) (complete cut : Repository) : Prop :=
  ∃ kept unfinished, cut.models = kept ++ unfinished ∧ kept <+: complete.models ∧
    limit ≤ kept.length ∧ ∀ model ∈ unfinished, document.Unfinished complete model

namespace Document.BreaksOff

variable {document : Document} {limit : Nat}

/-- Where the models are still the same, nothing is unfinished. -/
theorem refl {repository : Repository} (hlimit : limit ≤ repository.size) :
    document.BreaksOff limit repository repository :=
  ⟨repository.models, [], (List.append_nil _).symm, List.prefix_rfl, hlimit, fun _ h => nomatch h⟩

/-- The complete resolution may go on. -/
theorem mono {complete complete' cut : Repository} (h : document.BreaksOff limit complete cut)
    (hgrows : complete.models <+: complete'.models) : document.BreaksOff limit complete' cut := by
  obtain ⟨kept, unfinished, hmodels, hkept, hlimit, hunfinished⟩ := h
  refine ⟨kept, unfinished, hmodels, hkept.trans hgrows, hlimit, fun model hmodel => ?_⟩
  obtain ⟨schema, kind, members, name, references, hschema, hshape, heq, hname⟩ :=
    hunfinished model hmodel
  refine ⟨schema, kind, members, name, references, hschema, hshape, heq, ?_⟩
  rw [Repository.contains_iff] at hname ⊢
  exact (hgrows.map Model.name).subset hname

/-- One more unfinished composition may be registered. -/
theorem register {complete cut : Repository} {model : Model}
    (h : document.BreaksOff limit complete cut) (hmodel : document.Unfinished complete model) :
    document.BreaksOff limit complete (cut.register model).2 := by
  obtain ⟨kept, unfinished, hmodels, hkept, hlimit, hunfinished⟩ := h
  by_cases hknown : cut.contains model.name = true
  · refine ⟨kept, unfinished, ?_, hkept, hlimit, hunfinished⟩
    rw [Repository.models_register, if_pos hknown, hmodels]
  · refine ⟨kept, unfinished ++ [model], ?_, hkept, hlimit, fun other hother => ?_⟩
    · rw [Repository.models_register, if_neg hknown, hmodels, List.append_assoc]
    · rcases List.mem_append.1 hother with hother | hother
      · exact hunfinished other hother
      · obtain rfl := List.mem_singleton.1 hother
        exact hmodel

end Document.BreaksOff

/-- A cancelled resolution that is in step breaks off while the complete one goes on. -/
theorem ResolverState.InStep.breaksOff {document : Document} {limit : Nat}
    {complete complete' cut : ResolverState} (h : complete.InStep limit cut)
    (hcut : cut.cancelled = true) (hcomplete : complete.cancelled = false)
    (hgrows : complete.Grows complete') :
    document.BreaksOff limit complete'.repository cut.repository := by
  rcases h with rfl | ⟨-, hrepository, hlimit⟩
  · rw [hcut] at hcomplete
    cases hcomplete
  · rw [hrepository]
    exact (Document.BreaksOff.refl hlimit).mono hgrows.models

/-- An answer that a stage gives when not everything is resolved since the resolution was
cancelled. -/
def Lost : {kind : StageKind} → kind.Answer → Prop
  | .resolution, resolution => resolution.succeeded = false
  | .members, none => True
  | .members, some result => result.succeeded = false
  | .properties, result => result.succeeded = false
  | .facet, done => done = false

/-! ## After the cancellation -/

section Idle

variable {context : Context} {active : List ModelName} {state : ResolverState}

/-- A cancelled resolution gives up on members, or has none left. -/
theorem Runs.members_of_cancelled (h : state.cancelled = true) (offered : Bool)
    (members : List Node) (hint : ModelName) (index : Nat) {result : MemberResult}
    (hlost : result.succeeded = false) :
    ∃ answer : StageKind.members.Answer, Lost answer ∧
      Runs context active (.atMembers offered members hint index result) state answer state := by
  cases members with
  | nil => exact ⟨some result, hlost, .allMembers⟩
  | cons member rest => exact ⟨none, trivial, .membersLeft h⟩

/-- A cancelled resolution leaves out all properties. -/
theorem Runs.properties_of_cancelled (h : state.cancelled = true) (required : List String)
    (properties : List (String × Node)) (hint : ModelName) {result : PropertyResult}
    (hlost : result.succeeded = false) :
    ∃ answer : PropertyResult, answer.succeeded = false ∧
      Runs context active (.atProperties required properties hint result) state answer state := by
  induction properties generalizing result with
  | nil => exact ⟨result, hlost, .allProperties⟩
  | cons entry rest ih =>
    obtain ⟨name, node⟩ := entry
    have hadd : (result.add required name .failed).succeeded = false := rfl
    obtain ⟨answer, hanswer, hrest⟩ := ih hadd
    exact ⟨answer, hanswer, .nextProperty (.cancelled h) hrest⟩

/-- A cancelled resolution registers no array. -/
theorem Runs.array_of_cancelled (h : state.cancelled = true) (schema : Schema) (hint : ModelName) :
    ∃ done state', state'.cancelled = true ∧ state'.repository = state.repository ∧
      Runs context active (.atArray schema hint) state done state' := by
  cases hcalled : schema.types.contains .array with
  | false => exact ⟨true, state, h, rfl, .noArray hcalled⟩
  | true =>
    cases hknown : state.repository.contains hint with
    | true => exact ⟨true, state, h, rfl, .knownArray hcalled hknown⟩
    | false =>
      cases hitems : schema.items with
      | none => exact ⟨false, state.record _, h, rfl, .noItems hcalled hknown hitems⟩
      | some items =>
        cases items with
        | always allowed =>
          exact ⟨false, state.record _, h, rfl, .anyItems hcalled hknown hitems⟩
        | each node =>
          exact ⟨false, state, h, rfl, .lostArray hcalled hknown hitems (.cancelled h) rfl⟩

end Idle

/-- A registration without a limit does not cancel. -/
theorem ResolverState.cancelled_register (state : ResolverState) (model : Model) :
    (state.register none model).cancelled = state.cancelled := by
  simp [register]

/-- Nor do several. -/
theorem ResolverState.cancelled_registerAll (state : ResolverState) (models : List Model) :
    (state.registerAll none models).cancelled = state.cancelled := by
  induction models generalizing state with
  | nil => rfl
  | cons model rest ih => exact (ih _).trans (cancelled_register state model)

/-- A complete resolution is not cancelled by itself. -/
theorem Runs.cancelled_eq {document : Document} {kind : StageKind} {active : List ModelName}
    {stage : Stage kind} {state state' : ResolverState} {answer : kind.Answer}
    (h : Runs ⟨document, none⟩ active stage state answer state') :
    state'.cancelled = state.cancelled :=
  h.maintains (fun s => s.cancelled = state.cancelled)
    (fun model hs => (ResolverState.cancelled_register _ model).trans hs) (fun _ hs => hs)
    (fun id resolution hs => (ResolverState.cancelled_memoise _ id resolution).trans hs) rfl

/-! ## Cutting a run short -/

/-- A stage that a complete resolution answers, ending in the state `complete`, is answered from the
state `cut` by a resolution that is cut short: either in step, with the same answer, or after it
was cancelled. -/
def Stage.CutShort (document : Document) (limit : Nat) (active : List ModelName) {kind : StageKind}
    (stage : Stage kind) (answer : kind.Answer) (complete cut : ResolverState) : Prop :=
  ∃ answer' cut', Runs ⟨document, some limit⟩ active stage cut answer' cut' ∧
    ((complete.InStep limit cut' ∧ answer' = answer) ∨
      (cut'.cancelled = true ∧ Lost answer' ∧
        document.BreaksOff limit complete.repository cut'.repository))

section Cut

variable {document : Document} {limit : Nat} {active : List ModelName}
  {state state₁ state' cut cut' : ResolverState}

/-- A run that ends in step. -/
theorem Stage.CutShort.of_inStep {kind : StageKind} {stage : Stage kind} {answer : kind.Answer}
    (h : Runs ⟨document, some limit⟩ active stage cut answer cut')
    (hstep : state'.InStep limit cut') : stage.CutShort document limit active answer state' cut :=
  ⟨answer, cut', h, .inl ⟨hstep, rfl⟩⟩

/-- A run that breaks off. -/
theorem Stage.CutShort.of_breaksOff {kind : StageKind} {stage : Stage kind}
    {answer answer' : kind.Answer} (h : Runs ⟨document, some limit⟩ active stage cut answer' cut')
    (hcancelled : cut'.cancelled = true) (hlost : Lost answer')
    (hbreaks : document.BreaksOff limit state'.repository cut'.repository) :
    stage.CutShort document limit active answer state' cut :=
  ⟨answer', cut', h, .inr ⟨hcancelled, hlost, hbreaks⟩⟩

/-- A node is cut short, as it is not looked at after the cancellation. -/
theorem cutShort_atNode {node : Node} {hint : ModelName} {nullable : Bool}
    {resolution : Resolution} (hstate : state.cancelled = false) (hgrows : state.Grows state')
    (hstep : state.InStep limit cut)
    (hlive : cut.cancelled = false →
      (Stage.atNode node hint nullable).CutShort document limit active resolution state' cut) :
    (Stage.atNode node hint nullable).CutShort document limit active resolution state' cut := by
  cases hcut : cut.cancelled with
  | false => exact hlive hcut
  | true =>
    exact .of_breaksOff (.cancelled hcut) hcut rfl (hstep.breaksOff hcut hstate hgrows)

/-- A composition is cut short if its members are. If these are all resolved nevertheless, it is
registered, though unfinished. -/
theorem cutShort_composed {schema : Schema} {hint : ModelName} {nullable : Bool}
    {kind : CompositionKind} {members : List Node} {offered : Bool} {result : MemberResult}
    (hschema : document.Contains (.inline schema))
    (hshape : schema.composition? = some (kind, members))
    (hoffered : offersNull document kind members = .ok offered)
    (h : (Stage.atMembers offered members hint 0 {}).CutShort document limit active (some result)
      state' cut) :
    (Stage.atSchema schema hint nullable).CutShort document limit active
      (.single hint result.succeeded)
      (state'.register none (.composition hint kind result.references)) cut := by
  obtain ⟨answer, cut', hrun, ⟨hstep, rfl⟩ | ⟨hcancelled, hlost, hbreaks⟩⟩ := h
  · exact .of_inStep (.composed hshape hoffered hrun) (hstep.register _)
  · have hbreaks := hbreaks.mono
      (ResolverState.Grows.register none state' (.composition hint kind result.references)).models
    cases answer with
    | none => exact .of_breaksOff (.abandoned hshape hoffered hrun) hcancelled rfl hbreaks
    | some result' =>
      refine .of_breaksOff (.composed hshape hoffered hrun) ?_ hlost (hbreaks.register ?_)
      · simp [ResolverState.register, hcancelled]
      · exact ⟨schema, kind, members, hint, result'.references, hschema, hshape, rfl,
          Repository.contains_register_self⟩

/-- A schema with types is cut short if its object and its array are. -/
theorem cutShort_typed {schema : Schema} {hint : ModelName} {nullable objectDone arrayDone : Bool}
    (hshape : schema.composition? = none) (htypes : schema.types.isEmpty = false)
    (hobject : (Stage.atObject schema hint).CutShort document limit active objectDone state₁
      (cut.registerAll (some limit) (schema.flatModels hint nullable)))
    (harray : ∀ {cut}, state₁.InStep limit cut →
      (Stage.atArray schema hint).CutShort document limit active arrayDone state' cut)
    (hgrows : state₁.Grows state') :
    (Stage.atSchema schema hint nullable).CutShort document limit active
      ⟨schema.references hint nullable, objectDone && arrayDone⟩ state' cut := by
  obtain ⟨objectDone', cut₁, hobject, ⟨hstep, rfl⟩ | ⟨hcancelled, hlost, hbreaks⟩⟩ := hobject
  · obtain ⟨arrayDone', cut', harrayRun, ⟨hstep, rfl⟩ | ⟨hcancelled, hlost, hbreaks⟩⟩ :=
      harray hstep
    · exact .of_inStep (.typed hshape htypes hobject harrayRun) hstep
    · refine .of_breaksOff (.typed hshape htypes hobject harrayRun) hcancelled ?_ hbreaks
      obtain rfl : arrayDone' = false := hlost
      exact Bool.and_false _
  · -- the array is come to after the cancellation
    obtain rfl : objectDone' = false := hlost
    obtain ⟨arrayDone', cut', hcancelled', hrepository, harrayRun⟩ :=
      Runs.array_of_cancelled hcancelled schema hint
    refine .of_breaksOff (.typed hshape htypes hobject harrayRun) hcancelled'
      (Bool.false_and arrayDone') ?_
    rw [hrepository]
    exact hbreaks.mono hgrows.models

/-- Members are cut short if the first one is, and the others. -/
theorem cutShort_nextMember {offered : Bool} {member : Node} {rest : List Node} {hint : ModelName}
    {index : Nat} {result : MemberResult} {resolution : Resolution} {answer : Option MemberResult}
    (hstate : state.cancelled = false) (hgrows : state.Grows state') (hgrows₁ : state₁.Grows state')
    (hstep : state.InStep limit cut)
    (hfirst : (Stage.atNode member (Naming.member hint index)
      (offered && member.isSingleNonNull)).CutShort document limit active resolution state₁ cut)
    (hrest : ∀ {cut}, state₁.InStep limit cut →
      (Stage.atMembers offered rest hint (index + 1) (result.add resolution)).CutShort document
        limit active answer state' cut) :
    (Stage.atMembers offered (member :: rest) hint index result).CutShort document limit active
      answer state' cut := by
  cases hcut : cut.cancelled with
  | true =>
    exact .of_breaksOff (.membersLeft hcut) hcut trivial (hstep.breaksOff hcut hstate hgrows)
  | false =>
    obtain ⟨resolution', cut₁, hfirst, ⟨hstep₁, rfl⟩ | ⟨hcancelled, hlost, hbreaks⟩⟩ := hfirst
    · obtain ⟨answer', cut', hrest, hend⟩ := hrest hstep₁
      exact ⟨answer', cut', .nextMember hcut hfirst hrest, hend⟩
    · have hadd : (result.add resolution').succeeded = false := by
        rw [MemberResult.succeeded_add, show resolution'.succeeded = false from hlost,
          Bool.and_false]
      obtain ⟨answer', hlost', hrest⟩ :=
        Runs.members_of_cancelled hcancelled offered rest hint (index + 1) hadd
      exact .of_breaksOff (.nextMember hcut hfirst hrest) hcancelled hlost'
        (hbreaks.mono hgrows₁.models)

/-- Properties are cut short if the first one is, and the others. -/
theorem cutShort_nextProperty {required : List String} {name : String} {node : Node}
    {rest : List (String × Node)} {hint : ModelName} {result answer : PropertyResult}
    {resolution : Resolution} (hgrows₁ : state₁.Grows state')
    (hfirst : (Stage.atNode node (Naming.property hint name) false).CutShort document limit active
      resolution state₁ cut)
    (hrest : ∀ {cut}, state₁.InStep limit cut →
      (Stage.atProperties required rest hint (result.add required name resolution)).CutShort
        document limit active answer state' cut) :
    (Stage.atProperties required ((name, node) :: rest) hint result).CutShort document limit active
      answer state' cut := by
  obtain ⟨resolution', cut₁, hfirst, ⟨hstep₁, rfl⟩ | ⟨hcancelled, hlost, hbreaks⟩⟩ := hfirst
  · obtain ⟨answer', cut', hrest, hend⟩ := hrest hstep₁
    exact ⟨answer', cut', .nextProperty hfirst hrest, hend⟩
  · have hadd : (result.add required name resolution').succeeded = false := by
      rw [PropertyResult.succeeded_add, show resolution'.succeeded = false from hlost,
        Bool.and_false]
    obtain ⟨answer', hlost', hrest⟩ := Runs.properties_of_cancelled hcancelled
      required rest hint hadd
    exact .of_breaksOff (.nextProperty hfirst hrest) hcancelled hlost' (hbreaks.mono hgrows₁.models)

/-- An object is cut short if its properties are; it is not registered after a cancellation. -/
theorem cutShort_object {schema : Schema} {hint : ModelName} {result : PropertyResult}
    (hcalled : schema.types.contains .object = true)
    (hknown : cut.repository.contains hint = false) (hstate : state'.cancelled = false)
    (h : (Stage.atProperties schema.required schema.properties hint {}).CutShort document limit
      active result state' cut) :
    (Stage.atObject schema hint).CutShort document limit active result.succeeded
      (state'.register none (.object hint result.properties)) cut := by
  have hgrows := ResolverState.Grows.register none state' (.object hint result.properties)
  obtain ⟨result', cut', hrun, ⟨hstep, rfl⟩ | ⟨hcancelled, -, hbreaks⟩⟩ := h
  · cases hcut : cut'.cancelled with
    | false => exact .of_inStep (.object hcalled hknown hrun hcut) (hstep.register _)
    | true =>
      exact .of_breaksOff (.lostObject hcalled hknown hrun hcut) hcut rfl
        (hstep.breaksOff hcut hstate hgrows)
  · exact .of_breaksOff (.lostObject hcalled hknown hrun hcancelled) hcancelled rfl
      (hbreaks.mono hgrows.models)

/-- An array is cut short if its items are; it is registered in step with the complete one, or not
at all. -/
theorem cutShort_array {schema : Schema} {hint : ModelName} {node : Node} {resolution : Resolution}
    (hcalled : schema.types.contains .array = true)
    (hknown : cut.repository.contains hint = false) (hitems : schema.items = some (.each node))
    (hsucceeded : resolution.succeeded = true)
    (h : (Stage.atNode node (Naming.arrayItem hint) false).CutShort document limit active
      resolution state' cut) :
    (Stage.atArray schema hint).CutShort document limit active true
      (state'.register none (.array hint resolution.references)) cut := by
  obtain ⟨resolution', cut', hrun, ⟨hstep, rfl⟩ | ⟨hcancelled, hlost, hbreaks⟩⟩ := h
  · exact .of_inStep (.array hcalled hknown hitems hrun hsucceeded) (hstep.register _)
  · exact .of_breaksOff (.lostArray hcalled hknown hitems hrun hlost) hcancelled rfl
      (hbreaks.mono (ResolverState.Grows.register none state' _).models)

end Cut

/-- **A complete run has a cut one beside it**: from a state in step there is a run of the same
stage that is cancelled when the number of models reaches the limit. It ends in step with the
complete run and with the same answer, or it breaks off.

**Proof sketch.** Induction on the complete run. In step, the cut run takes the same rule; that the
models are the same decides the same questions about known names. A part that is cut short after a
cancellation makes the whole answer a failure, and what is registered around it is a composition
whose members are all looked at. -/
theorem Runs.cut {document : Document} {limit : Nat} {kind : StageKind} {active : List ModelName}
    {stage : Stage kind} {state state' cut : ResolverState} {answer : kind.Answer}
    (h : Runs ⟨document, none⟩ active stage state answer state') (hstate : state.cancelled = false)
    (hwithin : stage.Within document) (hstep : state.InStep limit cut) :
    stage.CutShort document limit active answer state' cut := by
  induction h generalizing cut with
  | cancelled hcancelled | membersLeft hcancelled =>
    rw [hstate] at hcancelled
    cases hcancelled
  | inline _ hrun ih =>
    refine cutShort_atNode hstate hrun.grows hstep fun hcut => ?_
    obtain ⟨answer', cut', hrun', hend⟩ := ih hstate hwithin hstep
    exact ⟨answer', cut', .inline hcut hrun', hend⟩
  | refused _ hname =>
    refine cutShort_atNode hstate (.record _ _) hstep fun hcut => ?_
    exact .of_inStep (.refused hcut hname) (hstep.record _)
  | finished _ hname hmemo =>
    refine cutShort_atNode hstate (.refl _) hstep fun hcut => ?_
    obtain rfl := hstep.eq_of_not_cancelled hcut
    exact .of_inStep (.finished hcut hname hmemo) hstep
  | busy _ hname hmemo hactive =>
    refine cutShort_atNode hstate (.refl _) hstep fun hcut => ?_
    obtain rfl := hstep.eq_of_not_cancelled hcut
    exact .of_inStep (.busy hcut hname hmemo hactive) hstep
  | missing _ hname hmemo hfresh hfound =>
    refine cutShort_atNode hstate (.record _ _) hstep fun hcut => ?_
    obtain rfl := hstep.eq_of_not_cancelled hcut
    exact .of_inStep (.missing hcut hname hmemo hfresh hfound) (hstep.record _)
  | entered _ hname hmemo hfresh hfound hrun ih =>
    refine cutShort_atNode hstate (hrun.grows.memoise hmemo) hstep fun hcut => ?_
    obtain rfl := hstep.eq_of_not_cancelled hcut
    obtain ⟨answer', cut', hrun', hend⟩ :=
      ih hstate (document.contains_of_findSchema hname hfound) hstep
    refine ⟨answer', _, .entered hcut hname hmemo hfresh hfound hrun', ?_⟩
    rcases hend with ⟨hstep', rfl⟩ | ⟨hcancelled, hlost, hbreaks⟩
    · exact .inl ⟨hstep'.memoise _ _, rfl⟩
    · exact .inr ⟨by simpa using hcancelled, hlost, by simpa using hbreaks⟩
  | composed hshape hoffered _ ih =>
    exact cutShort_composed hwithin hshape hoffered
      (ih hstate (fun _ hmember => .member hwithin hshape hmember) hstep)
  | abandoned _ _ hrun =>
    have hcancelled := hrun.cancelled_of_none
    rw [hrun.cancelled_eq, hstate] at hcancelled
    cases hcancelled
  | untyped hshape htypes => exact .of_inStep (.untyped hshape htypes) (hstep.record _)
  | @typed active schema hint nullable state _ _ _ _ hshape htypes hobject harray ihObject
      ihArray =>
    have hregistered : (state.registerAll none (schema.flatModels hint nullable)).cancelled =
        false := (ResolverState.cancelled_registerAll _ _).trans hstate
    refine cutShort_typed hshape htypes (ihObject hregistered hwithin (hstep.registerAll _))
      (fun hstep₁ => ?_) harray.grows
    exact ihArray (hobject.cancelled_eq.trans hregistered) hwithin hstep₁
  | allMembers => exact .of_inStep .allMembers hstep
  | nextMember _ hfirst hrest ihFirst ihRest =>
    refine cutShort_nextMember hstate (hfirst.grows.trans hrest.grows) hrest.grows hstep
      (ihFirst hstate (hwithin _ List.mem_cons_self) hstep) fun hstep₁ => ?_
    exact ihRest (hfirst.cancelled_eq.trans hstate)
      (fun _ hmember => hwithin _ (List.mem_cons_of_mem _ hmember)) hstep₁
  | allProperties => exact .of_inStep .allProperties hstep
  | nextProperty hfirst hrest ihFirst ihRest =>
    refine cutShort_nextProperty hrest.grows (ihFirst hstate (hwithin _ List.mem_cons_self) hstep)
      fun hstep₁ => ?_
    exact ihRest (hfirst.cancelled_eq.trans hstate)
      (fun _ hentry => hwithin _ (List.mem_cons_of_mem _ hentry)) hstep₁
  | noObject hcalled => exact .of_inStep (.noObject hcalled) hstep
  | knownObject hcalled hknown =>
    exact .of_inStep (.knownObject hcalled (hstep.repository ▸ hknown)) hstep
  | lostObject _ _ hrun hcancelled =>
    rw [hrun.cancelled_eq, hstate] at hcancelled
    cases hcancelled
  | object hcalled hknown _ hend ih =>
    exact cutShort_object hcalled (hstep.repository ▸ hknown) hend
      (ih hstate (fun _ hentry => .property hwithin hentry) hstep)
  | noArray hcalled => exact .of_inStep (.noArray hcalled) hstep
  | knownArray hcalled hknown =>
    exact .of_inStep (.knownArray hcalled (hstep.repository ▸ hknown)) hstep
  | noItems hcalled hknown hitems =>
    exact .of_inStep (.noItems hcalled (hstep.repository ▸ hknown) hitems) (hstep.record _)
  | anyItems hcalled hknown hitems =>
    exact .of_inStep (.anyItems hcalled (hstep.repository ▸ hknown) hitems) (hstep.record _)
  | lostArray hcalled hknown hitems _ hfailed ih =>
    obtain ⟨resolution', cut', hrun', ⟨hstep', rfl⟩ | ⟨hcancelled, hlost, hbreaks⟩⟩ :=
      ih hstate (.items hwithin hitems) hstep
    · exact .of_inStep (.lostArray hcalled (hstep.repository ▸ hknown) hitems hrun' hfailed) hstep'
    · exact .of_breaksOff (.lostArray hcalled (hstep.repository ▸ hknown) hitems hrun' hlost)
        hcancelled rfl hbreaks
  | array hcalled hknown hitems _ hsucceeded ih =>
    exact cutShort_array hcalled (hstep.repository ▸ hknown) hitems hsucceeded
      (ih hstate (.items hwithin hitems) hstep)

/-- **From the same state, the cut run is the same or breaks off.** -/
theorem Runs.eq_or_breaksOff {document : Document} {kind : StageKind} {active : List ModelName}
    {stage : Stage kind} {state state' : ResolverState} {answer : kind.Answer}
    (h : Runs ⟨document, none⟩ active stage state answer state') (hstate : state.cancelled = false)
    (hwithin : stage.Within document) (limit : Nat) :
    ∃ answer' cut', Runs ⟨document, some limit⟩ active stage state answer' cut' ∧
      ((cut' = state' ∧ answer' = answer) ∨
        (cut'.cancelled = true ∧ document.BreaksOff limit state'.repository cut'.repository)) := by
  obtain ⟨answer', cut', hrun, ⟨hstep, hanswer⟩ | ⟨hcancelled, -, hbreaks⟩⟩ :=
    h.cut hstate hwithin (.inl rfl : state.InStep limit state)
  · refine ⟨answer', cut', hrun, ?_⟩
    cases hcut : cut'.cancelled with
    | false => exact .inl ⟨hstep.eq_of_not_cancelled hcut, hanswer⟩
    | true => exact .inr ⟨rfl, hstep.breaksOff hcut (h.cancelled_eq.trans hstate) (.refl _)⟩
  · exact ⟨answer', cut', hrun, .inr ⟨hcancelled, hbreaks⟩⟩

end ApiCatalog
