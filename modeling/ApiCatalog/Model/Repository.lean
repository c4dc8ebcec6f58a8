import ApiCatalog.Model.Basic

set_option autoImplicit false

/-!
# The model repository

Models by name, in the order of their registration. The first registration of a name is final:
there is neither update nor removal.

## Main definitions

* `ApiCatalog.Repository`: models with distinct names.
* `Repository.add`: registration that refuses a known name.
* `Repository.register`: registration that leaves a known name as it is.
* `Repository.registerChecked`: the same, as a check followed by `Repository.add`.
* `Repository.find?`, `Repository.getAs`: look-up by name, and by name and kind.

## Main results

* `Repository.registerChecked_eq`: the two ways to register a model at most once agree.
* `Repository.models_register`: what is registered comes last, or nothing changes.
-/

namespace ApiCatalog

/-- A name was registered twice. -/
structure DuplicateModel where
  name : ModelName
deriving DecidableEq, Repr

/-- The wording of a double registration. -/
def DuplicateModel.message (error : DuplicateModel) : String :=
  "model '" ++ error.name ++ "' is already registered"

/-- Why a model of a certain kind is not found. -/
inductive LookupError where
  | notFound (name : ModelName)
  | kindMismatch (name : ModelName) (expected actual : ModelKind)
deriving DecidableEq, Repr

/-- The wording of a failed look-up. -/
def LookupError.message : LookupError → String
  | .notFound name => "model '" ++ name ++ "' is not registered"
  | .kindMismatch name expected actual =>
    "model '" ++ name ++ "' is a " ++ actual.label ++ " model, expected " ++ expected.label

/-- Models with distinct names, in the order of their registration. -/
structure Repository where
  models : List Model
  nodup_names : (models.map Model.name).Nodup
deriving DecidableEq

namespace Repository

/-- The repository without models. -/
def empty : Repository :=
  ⟨[], List.nodup_nil⟩

instance : EmptyCollection Repository := ⟨empty⟩

instance : Inhabited Repository := ⟨empty⟩

/-- The names of the models, in the order of their registration. -/
def names (repository : Repository) : List ModelName :=
  repository.models.map Model.name

/-- The number of models. -/
def size (repository : Repository) : Nat :=
  repository.models.length

/-- Whether a name is registered. -/
def contains (repository : Repository) (name : ModelName) : Bool :=
  repository.names.contains name

/-- The model of a name. -/
def find? (repository : Repository) (name : ModelName) : Option Model :=
  repository.models.find? fun model => model.name = name

/-- A name is registered exactly if it is among the names of the models. -/
theorem contains_iff {repository : Repository} {name : ModelName} :
    repository.contains name ↔ name ∈ repository.names := by
  simp [contains]

/-- A model with a free name may be added at the end. -/
theorem nodup_names_append {repository : Repository} {model : Model}
    (h : ¬ repository.contains model.name) :
    ((repository.models ++ [model]).map Model.name).Nodup := by
  rw [List.map_append]
  refine List.nodup_append.2 ⟨repository.nodup_names, by simp, ?_⟩
  intro a ha b hb
  rw [List.map_singleton, List.mem_singleton] at hb
  subst hb
  exact fun e => h (contains_iff.2 (e ▸ ha))

/-- Registers a model whose name is free. -/
def add (repository : Repository) (model : Model) : Except DuplicateModel Repository :=
  if h : repository.contains model.name then .error ⟨model.name⟩
  else .ok ⟨repository.models ++ [model], nodup_names_append h⟩

/-- Registers a model unless its name is taken; tells whether it was stored. -/
def register (repository : Repository) (model : Model) : Bool × Repository :=
  if h : repository.contains model.name then (false, repository)
  else (true, ⟨repository.models ++ [model], nodup_names_append h⟩)

/-- Registers a model unless its name is known, by a check followed by an addition. -/
def registerChecked (repository : Repository) (model : Model) : Bool × Repository :=
  if repository.contains model.name then (false, repository)
  else match repository.add model with
    | .ok stored => (true, stored)
    | .error _ => (false, repository)

/-- The model of a name, provided that it is of the kind asked for. -/
def getAs (repository : Repository) (name : ModelName) (kind : ModelKind) :
    Except LookupError Model :=
  match repository.find? name with
  | none => .error (.notFound name)
  | some model =>
    if model.kind = kind then .ok model else .error (.kindMismatch name kind model.kind)

/-- The repository of the first model of each name in a list. -/
def ofList (models : List Model) : Repository :=
  models.foldl (fun repository model => (repository.register model).2) empty

/-! ## Laws -/

/-- Looking first whether the name is free gives the same as trying to add the model. -/
theorem registerChecked_eq (repository : Repository) (model : Model) :
    repository.registerChecked model = repository.register model := by
  unfold registerChecked register add
  by_cases h : repository.contains model.name <;> simp [h]

/-- A registration puts a model at the end if its name is free, and changes nothing otherwise. -/
theorem models_register (repository : Repository) (model : Model) :
    (repository.register model).2.models =
      if repository.contains model.name then repository.models
      else repository.models ++ [model] := by
  unfold register
  by_cases h : repository.contains model.name <;> simp [h]

end Repository

end ApiCatalog
