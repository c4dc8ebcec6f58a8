import ApiCatalog.Proofs.Resolution.Growth

set_option autoImplicit false

/-!
# Registrations one after the other

A repository that starts empty is offered models, each in one of three ways. Whichever way is
taken, the first model of a name stays and every later one is turned away.

## Main definitions

* `ApiCatalog.Repository.Offer`: a model, and the way in which it is offered.
* `Repository.perform`, `Repository.performAll`: what a repository answers to offers, and what
  becomes of it.
* `Repository.firsts`: the first model of each name in a list.
* `Repository.checkedAt`: the same offers, some of them made by a check followed by an addition.

## Main results

* `Repository.models_performAll`: offers append the first models of the names that are new.
* `Repository.answers_performAll`: an answer depends only on whether the name was offered before.
* `Repository.performAll_keeps_first`: the contents and the answers of a repository that starts
  empty.
-/

namespace ApiCatalog.Repository

/-! ## Offers -/

/-- A model that is offered to a repository. -/
inductive Offer where
  /-- The model is added; that its name is taken is an error. -/
  | add (model : Model)
  /-- The model is registered unless its name is taken. -/
  | register (model : Model)
  /-- The model is registered unless its name is taken, by a check followed by an addition. -/
  | registerChecked (model : Model)
deriving DecidableEq

/-- What a repository answers to an offer. -/
inductive Answer where
  | added (result : Except DuplicateModel Unit)
  | registered (stored : Bool)

namespace Offer

/-- The model that is offered. -/
def model : Offer → Model
  | add model => model
  | register model => model
  | registerChecked model => model

/-- The name of the model that is offered. -/
def name (offer : Offer) : ModelName :=
  offer.model.name

/-- The answer to an offer of a name that was, or was not, offered before. -/
def answer (known : Bool) : Offer → Answer
  | add model => .added (if known then .error ⟨model.name⟩ else .ok ())
  | register _ => .registered !known
  | registerChecked _ => .registered !known

/-- The same offer, with a registration made by a check followed by an addition. -/
def checked : Offer → Offer
  | register model => registerChecked model
  | offer => offer

end Offer

/-- The answer of a repository to an offer, and the repository afterwards. -/
def perform (repository : Repository) : Offer → Answer × Repository
  | .add model =>
    match repository.add model with
    | .ok stored => (.added (.ok ()), stored)
    | .error error => (.added (.error error), repository)
  | .register model => (repository.register model).map .registered id
  | .registerChecked model => (repository.registerChecked model).map .registered id

/-- The answers of a repository to one offer after the other, and the repository afterwards. -/
def performAll (repository : Repository) : List Offer → List Answer × Repository
  | [] => ([], repository)
  | offer :: rest =>
    let (answer, stored) := repository.perform offer
    let (answers, final) := stored.performAll rest
    (answer :: answers, final)

/-- The offers, those at the chosen places made by a check followed by an addition. -/
def checkedAt (chosen : Nat → Bool) (offers : List Offer) : List Offer :=
  offers.mapIdx fun index offer => if chosen index then offer.checked else offer

/-- The first model of each name, in the order of the list. -/
def firsts : List Model → List Model
  | [] => []
  | model :: rest => model :: (firsts rest).filter fun later => later.name ≠ model.name

/-! ## One offer -/

section Step

variable (repository : Repository) (offer : Offer)

/-- A registration tells whether its model was stored. -/
theorem fst_register (model : Model) :
    (repository.register model).1 = !repository.contains model.name := by
  unfold register
  by_cases h : repository.contains model.name <;> simp [h]

/-- An addition answers by its name, and leaves what a registration leaves. -/
theorem perform_add (model : Model) :
    repository.perform (.add model) =
      (Offer.answer (repository.contains model.name) (.add model),
        (repository.register model).2) := by
  unfold perform add register Offer.answer
  by_cases h : repository.contains model.name <;> simp [h]

/-- **One step.** The answer depends only on whether the name is known; and however a model is
offered, the repository changes as by a registration. -/
theorem perform_eq :
    repository.perform offer =
      (offer.answer (repository.contains offer.name), (repository.register offer.model).2) := by
  cases offer with
  | add model => exact repository.perform_add model
  | register model => exact Prod.ext (congrArg Answer.registered (fst_register _ _)) rfl
  | registerChecked model =>
    rw [perform, registerChecked_eq]
    exact Prod.ext (congrArg Answer.registered (fst_register _ _)) rfl

/-- The check before an addition makes no difference. -/
theorem perform_checked : repository.perform offer.checked = repository.perform offer := by
  cases offer with
  | add | registerChecked => rfl
  | register model => rw [Offer.checked, perform_eq, perform_eq]; rfl

/-- A registration leaves the repository as it is exactly if the name is known. -/
theorem register_eq_self_iff {model : Model} :
    (repository.register model).2 = repository ↔ repository.contains model.name = true := by
  constructor
  · intro h
    rw [← h]
    exact contains_register_self
  · intro h
    rw [register, dif_pos h]

end Step

/-! ## The first models of a list -/

/-- The first model of a name among the first models is the first one in the list. -/
theorem find?_firsts (offered : List Model) (name : ModelName) :
    (firsts offered).find? (fun model => model.name = name) =
      offered.find? fun model => model.name = name := by
  induction offered with
  | nil => rfl
  | cons model rest ih =>
    by_cases h : model.name = name
    · simp [firsts, h]
    · rw [firsts, List.find?_cons_of_neg (by simpa using h),
        List.find?_cons_of_neg (by simpa using h), List.find?_filter, ← ih]
      congr 1
      funext later
      rw [Bool.eq_iff_iff]
      simp only [decide_eq_true_eq]
      exact ⟨And.right, fun hlater => ⟨fun he => h (he.symm.trans hlater), hlater⟩⟩

/-! ## Many offers -/

section Run

variable (repository : Repository) (offers : List Offer)

/-- A run answers the first offer, and goes on after the registration of its model. -/
theorem performAll_cons (offer : Offer) :
    repository.performAll (offer :: offers) =
      (offer.answer (repository.contains offer.name) ::
          ((repository.register offer.model).2.performAll offers).1,
        ((repository.register offer.model).2.performAll offers).2) := by
  rw [performAll, perform_eq]

/-- A name is known after some offers if it was known before or is among the names offered. -/
theorem contains_performAll {name : ModelName} :
    (repository.performAll offers).2.contains name = true ↔
      repository.contains name = true ∨ name ∈ offers.map Offer.name := by
  induction offers generalizing repository with
  | nil => simp [performAll]
  | cons offer rest ih =>
    rw [performAll_cons, ih, contains_register, List.map_cons, List.mem_cons, or_assoc]
    rfl

/-- **Contents after a run.** Offers append the first models of the names that are not known yet.

**Proof sketch.** Induction on the offers. If the name of the first one is known, then dropping its
later namesakes changes nothing, since all known names are dropped anyway; otherwise it becomes
known, and the later namesakes are dropped on both sides. -/
theorem models_performAll :
    (repository.performAll offers).2.models =
      repository.models ++ (firsts (offers.map Offer.model)).filter fun model =>
        !repository.contains model.name := by
  induction offers generalizing repository with
  | nil => simp [performAll, firsts]
  | cons offer rest ih =>
    rw [performAll_cons, ih, models_register, List.map_cons, firsts, List.filter_cons,
      List.filter_filter]
    cases hknown : repository.contains offer.model.name with
    | true =>
      have hsame : (repository.register offer.model).2 = repository :=
        (repository.register_eq_self_iff).2 hknown
      simp only [hsame, if_true, Bool.not_true, Bool.false_eq_true, if_false]
      congr 1
      refine List.filter_congr fun model _ => ?_
      by_cases h : model.name = offer.model.name <;> simp [h, hknown]
    | false =>
      simp only [Bool.false_eq_true, if_false, Bool.not_false, if_true, List.append_assoc,
        List.singleton_append]
      congr 2
      refine List.filter_congr fun model _ => ?_
      rw [Bool.eq_iff_iff]
      simp [contains_register, ← Bool.not_eq_true]

/-- **Answers of a run.** Each offer is answered by whether its name was known at the start or
offered earlier. -/
theorem answers_performAll (i : Nat) :
    (repository.performAll offers).1[i]? = offers[i]?.map fun offer =>
      offer.answer (repository.contains offer.name ||
        decide (offer.name ∈ (offers.take i).map Offer.name)) := by
  induction offers generalizing repository i with
  | nil => simp [performAll]
  | cons first rest ih =>
    rw [performAll_cons]
    cases i with
    | zero => simp
    | succ i =>
      rw [List.getElem?_cons_succ, List.getElem?_cons_succ, ih]
      refine congrArg (rest[i]?.map ·) (funext fun offer => congrArg offer.answer ?_)
      rw [Bool.eq_iff_iff]
      simp only [Bool.or_eq_true, decide_eq_true_eq, contains_register, List.take_succ_cons,
        List.map_cons, List.mem_cons, or_assoc]
      rfl

/-- Making some of the registrations by a check followed by an addition changes no answer and no
content. -/
theorem performAll_checkedAt (chosen : Nat → Bool) :
    repository.performAll (checkedAt chosen offers) = repository.performAll offers := by
  induction offers generalizing repository chosen with
  | nil => rfl
  | cons offer rest ih =>
    have htail : checkedAt chosen (offer :: rest) =
        (if chosen 0 then offer.checked else offer) ::
          checkedAt (fun index => chosen (index + 1)) rest := List.mapIdx_cons
    have hhead : repository.perform (if chosen 0 then offer.checked else offer) =
        repository.perform offer := by
      split
      · exact repository.perform_checked offer
      · rfl
    rw [htail, performAll, performAll, hhead]
    simp only [ih]

end Run

/-! ## A repository that starts empty -/

/-- **The first registration of a name is final.** However models are offered to a repository that
starts empty:

* it holds, in the order of the offers, the first model of each name, and finds it by that name;
* the names it knows are those that were offered;
* an addition fails, with the name, and a registration stores nothing, exactly if the name was
  offered before, and exactly then a further offer leaves the repository as it is;
* it makes no difference which of the registrations are made by a check followed by an addition. -/
theorem performAll_keeps_first (offers : List Offer) (chosen : Nat → Bool) :
    (performAll ∅ offers).2.models = firsts (offers.map Offer.model) ∧
    (performAll ∅ offers).2.names = (firsts (offers.map Offer.model)).map Model.name ∧
    (∀ name, (performAll ∅ offers).2.find? name =
      (offers.map Offer.model).find? fun model => model.name = name) ∧
    (∀ name, (performAll ∅ offers).2.contains name = true ↔ name ∈ offers.map Offer.name) ∧
    (∀ i, (performAll ∅ offers).1[i]? = offers[i]?.map fun offer : Offer =>
      offer.answer (decide (offer.name ∈ (offers.take i).map Offer.name))) ∧
    (∀ offer : Offer, (perform (performAll ∅ offers).2 offer).2 = (performAll ∅ offers).2 ↔
      offer.name ∈ offers.map Offer.name) ∧
    performAll ∅ (checkedAt chosen offers) = performAll ∅ offers := by
  have hempty (name : ModelName) : (∅ : Repository).contains name = false := rfl
  have hmodels : (performAll ∅ offers).2.models = firsts (offers.map Offer.model) := by
    rw [models_performAll, show (∅ : Repository).models = [] from rfl, List.nil_append]
    exact List.filter_eq_self.2 fun model _ => by rw [hempty]; rfl
  have hknown (name : ModelName) :
      (performAll ∅ offers).2.contains name = true ↔ name ∈ offers.map Offer.name := by
    rw [contains_performAll, hempty]
    simp
  refine ⟨hmodels, congrArg (List.map Model.name) hmodels, fun name => ?_, hknown, fun i => ?_,
    fun offer => ?_, performAll_checkedAt ∅ offers chosen⟩
  · rw [find?, hmodels, find?_firsts]
  · rw [answers_performAll]
    simp only [hempty, Bool.false_or]
  · rw [perform_eq, register_eq_self_iff]
    exact hknown offer.name

end ApiCatalog.Repository
