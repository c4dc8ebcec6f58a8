import ApiCatalog.Proofs.Resolution.Names
import Mathlib.Data.List.Basic

set_option autoImplicit false

/-!
# Names of nested facets

A schema that is written inline is reached from the schema with a hint by steps: to a property, to a
member of a composition, to the items of an array. What its name adds to the hint spells these steps
one after the other, each behind its mark. A mark ends the number of a member, but not the name of a
property, which may contain marks itself: a property `b.c` is spelled as the property `c` of the
property `b`. Two paths have one name only in this way.

## Main definitions

* `Naming.Facet`, `Naming.FacetPath`: a step, and a path of steps.
* `Naming.FacetPath.name`: the name at the end of a path.
* `Naming.FacetPath.RunsInto`: the name of a property spells steps that another path takes.
* `Naming.FacetPath.IsUnmarked`: the properties on a path have names without marks.

## Main results

* `Naming.FacetPath.eq_of_spelling_eq`: what a spelling can be read as.
* `Naming.FacetPath.names_below`: which paths share a name, and which have that of the hint.
* `Naming.FacetPath.names_shared`: two facets with one name.
-/

namespace ApiCatalog.Naming

/-- A step from a schema to one of its facets. -/
inductive Facet where
  /-- To the property of a given name. -/
  | property (name : String)
  /-- To the member of a composition at a given place. -/
  | member (index : Nat)
  /-- To the items of an array. -/
  | arrayItem
deriving DecidableEq, Repr

namespace Facet

/-- The name of a facet of the schema that has a given name. -/
def nameFrom (hint : ModelName) : Facet → ModelName
  | property name => Naming.property hint name
  | member index => Naming.member hint index
  | arrayItem => Naming.arrayItem hint

/-- What a facet adds to the name of the schema around it. -/
def spelling : Facet → List Char
  | property name => '.' :: name.toList
  | member index => '#' :: Nat.toDigits 10 index
  | arrayItem => ['[', ']']

/-- The characters that the marks of facets and of enumerations begin with. -/
def marks : List Char := ['.', '#', '[', '?']

/-- A facet whose name contains no mark. -/
def IsUnmarked : Facet → Prop
  | property name => ∀ c ∈ name.toList, c ∉ marks
  | member _ => True
  | arrayItem => True

/-- Whether a name contains a mark can be seen. -/
instance : DecidablePred IsUnmarked
  | property name => List.decidableBAll (· ∉ marks) name.toList
  | member _ => isTrue trivial
  | arrayItem => isTrue trivial

/-- The name of a facet is the name around it and the spelling of the facet. -/
theorem toList_nameFrom (hint : ModelName) (facet : Facet) :
    (facet.nameFrom hint).toList = hint.toList ++ facet.spelling := by
  cases facet with
  | property name => simp [nameFrom, spelling, Naming.property]
  | member index => exact toList_member hint index
  | arrayItem => exact toList_arrayItem hint

end Facet

/-- A way from a schema to a facet below it: the steps, and whether what they lead to is taken as an
enumeration that admits null. -/
@[ext]
structure FacetPath where
  steps : List Facet
  nullable : Bool
deriving DecidableEq, Repr

namespace FacetPath

/-- The path that leads nowhere. -/
def empty : FacetPath := ⟨[], false⟩

/-- The name at the end of a path from a schema. -/
def name (hint : ModelName) (path : FacetPath) : ModelName :=
  enumeration (path.steps.foldl Facet.nameFrom hint) path.nullable

/-- What a path adds to the name that it starts from. -/
def spelling (path : FacetPath) : List Char :=
  path.steps.flatMap Facet.spelling ++ if path.nullable then ['?'] else []

/-- The properties on a path have names without marks. -/
def IsUnmarked (path : FacetPath) : Prop :=
  ∀ facet ∈ path.steps, facet.IsUnmarked

/-- Whether a path is unmarked can be seen. -/
instance : DecidablePred IsUnmarked := fun path =>
  List.decidableBAll Facet.IsUnmarked path.steps

/-- One path runs into another: behind a common beginning the one steps to a property, and the other
to a property whose name goes on with what the one spells next. What is left spells the same. -/
def RunsInto (path other : FacetPath) : Prop :=
  ∃ (common : List Facet) (name tail : String) (rest rest' : List Facet),
    path.steps = common ++ .property name :: rest ∧
    other.steps = common ++ .property (name ++ tail) :: rest' ∧ tail ≠ "" ∧
    spelling ⟨rest, path.nullable⟩ = tail.toList ++ spelling ⟨rest', other.nullable⟩

variable {steps steps' rest rest' : List Facet} {nullable nullable' : Bool} {path other : FacetPath}

/-! ## Spellings -/

/-- A path spells its steps one after the other. -/
theorem spelling_append : spelling ⟨steps ++ rest, nullable⟩ =
    steps.flatMap Facet.spelling ++ spelling ⟨rest, nullable⟩ := by
  simp [spelling]

/-- A path begins with the spelling of its first step. -/
theorem spelling_cons (facet : Facet) :
    spelling ⟨facet :: rest, nullable⟩ = facet.spelling ++ spelling ⟨rest, nullable⟩ := by
  simp [spelling]

/-- The name at the end of a path is the name at its start and the spelling of the path. -/
theorem toList_name (hint : ModelName) (path : FacetPath) :
    (path.name hint).toList = hint.toList ++ path.spelling := by
  obtain ⟨steps, nullable⟩ := path
  induction steps generalizing hint with
  | nil => cases nullable <;> simp [name, spelling, enumeration]
  | cons facet rest ih =>
    have hrest : name hint ⟨facet :: rest, nullable⟩ =
        name (facet.nameFrom hint) ⟨rest, nullable⟩ := rfl
    rw [hrest, ih, Facet.toList_nameFrom, spelling_cons, List.append_assoc]

/-- A spelling begins with a mark, if with anything. -/
theorem head?_spelling_mem_marks (path : FacetPath) :
    ∀ c ∈ path.spelling.head?, c ∈ Facet.marks := by
  obtain ⟨steps, nullable⟩ := path
  cases steps with
  | nil => cases nullable <;> simp [spelling, Facet.marks]
  | cons facet rest => cases facet <;> simp [spelling_cons, Facet.spelling, Facet.marks]

/-- Marks are no digits. -/
theorem head?_spelling_isDigit (path : FacetPath) :
    ∀ c ∈ path.spelling.head?, c.isDigit = false := by
  have hmarks : ∀ c ∈ Facet.marks, c.isDigit = false :=
    List.forall_iff_forall_mem.1 (by decide)
  exact fun c hc => hmarks c (head?_spelling_mem_marks path c hc)

/-- Only the path that leads nowhere adds nothing. -/
theorem spelling_eq_nil_iff : path.spelling = [] ↔ path = empty := by
  obtain ⟨steps, nullable⟩ := path
  cases steps with
  | nil => cases nullable <;> simp [spelling, empty]
  | cons facet rest => cases facet <;> simp [spelling_cons, Facet.spelling, empty]

/-! ## Reading -/

/-- Paths that run into each other do so behind one more common step. -/
theorem RunsInto.cons (facet : Facet) (h : RunsInto ⟨steps, nullable⟩ ⟨steps', nullable'⟩) :
    RunsInto ⟨facet :: steps, nullable⟩ ⟨facet :: steps', nullable'⟩ := by
  obtain ⟨common, name, tail, rest, rest', hpath, hother, htail, hrest⟩ := h
  exact ⟨facet :: common, name, tail, rest, rest', congrArg _ hpath, congrArg _ hother, htail,
    hrest⟩

/-- Paths that run into each other spell the same. -/
theorem RunsInto.spelling_eq (h : path.RunsInto other) : path.spelling = other.spelling := by
  obtain ⟨steps, nullable⟩ := path
  obtain ⟨steps', nullable'⟩ := other
  obtain ⟨common, name, tail, rest, rest', rfl, rfl, -, hrest⟩ := h
  rw [spelling_append, spelling_append, spelling_cons, spelling_cons, hrest]
  simp [Facet.spelling]

/-- Paths that run into each other do so in a mark within the name of a property. -/
theorem RunsInto.not_isUnmarked (h : path.RunsInto other) : ¬ other.IsUnmarked := by
  obtain ⟨common, name, tail, rest, rest', -, hother, htail, hrest⟩ := h
  intro hunmarked
  have hproperty : Facet.property (name ++ tail) ∈ other.steps := by
    rw [hother]
    exact List.mem_append_right _ List.mem_cons_self
  cases hchars : tail.toList with
  | nil => exact htail (String.toList_eq_nil_iff.1 hchars)
  | cons c chars =>
    have hmark : c ∈ Facet.marks := by
      refine head?_spelling_mem_marks ⟨rest, path.nullable⟩ c ?_
      rw [hrest, hchars]
      rfl
    refine hunmarked _ hproperty c ?_ hmark
    rw [String.toList_append, hchars]
    exact List.mem_append_right _ List.mem_cons_self

/-- A path without steps spells nothing that a path with steps does. -/
theorem eq_nil_of_spelling_eq (h : spelling ⟨[], nullable⟩ = spelling ⟨steps, nullable'⟩) :
    steps = [] ∧ nullable = nullable' := by
  cases steps with
  | nil => cases nullable <;> cases nullable' <;> simp_all [spelling]
  | cons facet rest =>
    have hfirst : (spelling ⟨[], nullable⟩).head? = facet.spelling.head? := by
      rw [h, spelling_cons]
      cases facet <;> rfl
    cases nullable <;> cases facet <;> simp [spelling, Facet.spelling] at hfirst

/-- Of two properties, the name of one of which goes on from that of the other: they are the same,
or the path through the one runs into the path through the other. -/
theorem eq_or_runsInto {name name' : String} {tail : List Char}
    (hname : name'.toList = name.toList ++ tail)
    (hrest : spelling ⟨rest, nullable⟩ = tail ++ spelling ⟨rest', nullable'⟩) :
    name = name' ∧ spelling ⟨rest, nullable⟩ = spelling ⟨rest', nullable'⟩ ∨
      RunsInto ⟨.property name :: rest, nullable⟩ ⟨.property name' :: rest', nullable'⟩ := by
  cases tail with
  | nil => exact .inl ⟨String.toList_inj.1 (by rw [hname, List.append_nil]), hrest⟩
  | cons c chars =>
    have hname' : name' = name ++ String.ofList (c :: chars) :=
      String.toList_inj.1 (by rw [hname, String.toList_append, String.toList_ofList])
    refine .inr ⟨[], name, String.ofList (c :: chars), rest, rest', rfl, ?_, ?_, ?_⟩
    · rw [hname']
      rfl
    · exact fun hnil => by simpa using congrArg String.toList hnil
    · rw [String.toList_ofList, hrest]

/-- **What a spelling can be read as**: paths with one spelling are equal, unless one of them runs
into the other.

**Proof sketch.** By induction on the steps. The first character tells which kind of step comes
first. The number of a member ends where the digits do, so that the members are the same; of the
names of two properties one goes on from the other. -/
theorem eq_of_spelling_eq (h : spelling ⟨steps, nullable⟩ = spelling ⟨steps', nullable'⟩) :
    (⟨steps, nullable⟩ : FacetPath) = ⟨steps', nullable'⟩ ∨
      RunsInto ⟨steps, nullable⟩ ⟨steps', nullable'⟩ ∨
      RunsInto ⟨steps', nullable'⟩ ⟨steps, nullable⟩ := by
  induction steps generalizing steps' with
  | nil =>
    obtain ⟨rfl, rfl⟩ := eq_nil_of_spelling_eq h
    exact .inl rfl
  | cons facet rest ih =>
    cases steps' with
    | nil => exact absurd (eq_nil_of_spelling_eq h.symm).1 (List.cons_ne_nil _ _)
    | cons facet' rest' =>
      -- behind the same first step the rests decide
      have hsame : facet = facet' → spelling ⟨rest, nullable⟩ = spelling ⟨rest', nullable'⟩ →
          (⟨facet :: rest, nullable⟩ : FacetPath) = ⟨facet' :: rest', nullable'⟩ ∨
            RunsInto ⟨facet :: rest, nullable⟩ ⟨facet' :: rest', nullable'⟩ ∨
            RunsInto ⟨facet' :: rest', nullable'⟩ ⟨facet :: rest, nullable⟩ := by
        rintro rfl hrest
        refine (ih hrest).imp (fun heq => ?_) (Or.imp (.cons facet) (.cons facet))
        cases heq
        rfl
      rw [spelling_cons, spelling_cons] at h
      cases facet with
      | property name =>
        cases facet' with
        | property name' =>
          rcases List.append_eq_append_iff.1 (List.cons.inj h).2 with
            ⟨tail, hname, hrest⟩ | ⟨tail, hname, hrest⟩
          · rcases eq_or_runsInto hname hrest with ⟨rfl, hrest⟩ | hinto
            · exact hsame rfl hrest
            · exact .inr (.inl hinto)
          · rcases eq_or_runsInto hname hrest with ⟨rfl, hrest⟩ | hinto
            · exact hsame rfl hrest.symm
            · exact .inr (.inr hinto)
        | member index' => cases (List.cons.inj h).1
        | arrayItem => cases (List.cons.inj h).1
      | member index =>
        cases facet' with
        | property name' => cases (List.cons.inj h).1
        | member index' =>
          obtain ⟨rfl, hrest⟩ := Extends.eq_of_toDigits_append_eq (head?_spelling_isDigit _)
            (head?_spelling_isDigit _) (List.cons.inj h).2
          exact hsame rfl hrest
        | arrayItem => cases (List.cons.inj h).1
      | arrayItem =>
        cases facet' with
        | property name' => cases (List.cons.inj h).1
        | member index' => cases (List.cons.inj h).1
        | arrayItem => exact hsame rfl (List.append_cancel_left h)

/-! ## Names -/

/-- **The names below a hint.** The name at the end of a path is the hint only if the path leads
nowhere. Two paths have one name exactly if they are equal or one of them runs into the other, which
takes a property whose name contains a mark. -/
theorem names_below (hint : ModelName) :
    (∀ path : FacetPath, path.name hint = hint ↔ path = empty) ∧
    (∀ path other : FacetPath, path.name hint = other.name hint ↔
      path = other ∨ path.RunsInto other ∨ other.RunsInto path) ∧
    ∀ path other : FacetPath, path.IsUnmarked → other.IsUnmarked →
      path.name hint = other.name hint → path = other := by
  have hspelling : ∀ path other : FacetPath,
      path.name hint = other.name hint ↔ path.spelling = other.spelling := fun path other => by
    rw [← String.toList_inj, toList_name, toList_name, List.append_cancel_left_eq]
  have hnames : ∀ path other : FacetPath, path.name hint = other.name hint ↔
      path = other ∨ path.RunsInto other ∨ other.RunsInto path := fun path other => by
    rw [hspelling]
    refine ⟨eq_of_spelling_eq, ?_⟩
    rintro (rfl | hinto | hinto)
    · rfl
    · exact hinto.spelling_eq
    · exact hinto.spelling_eq.symm
  refine ⟨fun path => ?_, hnames, fun path other hpath hother hname => ?_⟩
  · exact (hspelling path empty).trans spelling_eq_nil_iff
  · exact ((hnames path other).1 hname).resolve_right fun hinto =>
      hinto.elim (·.not_isUnmarked hother) (·.not_isUnmarked hpath)

/-- The items of a property and the enumeration of its eleventh member, below one hint. -/
theorem names_below_pet :
    name "Pet" ⟨[.property "tags", .arrayItem], false⟩ = "Pet.tags[]" ∧
      name "Pet" ⟨[.property "tags", .member 10], true⟩ = "Pet.tags#10?" ∧
      name "Pet" ⟨[.property "tags", .arrayItem], false⟩ ≠ "Pet" ∧
      name "Pet" ⟨[.property "tags", .arrayItem], false⟩ ≠
        name "Pet" ⟨[.property "tags", .member 10], true⟩ := by
  obtain ⟨hhint, -, hunmarked⟩ := names_below "Pet"
  refine ⟨by decide, by decide, fun h => ?_, fun h => ?_⟩
  · exact absurd ((hhint _).1 h) (by decide)
  · exact absurd (hunmarked _ _ (by decide) (by decide) h) (by decide)

/-- **Two facets with one name**: a property of a property, and a property whose name contains the
mark that separates the two; likewise a member of a property. -/
theorem names_shared :
    (name "A" ⟨[.property "b", .property "c"], false⟩ = name "A" ⟨[.property "b.c"], false⟩ ∧
      (⟨[.property "b", .property "c"], false⟩ : FacetPath) ≠ ⟨[.property "b.c"], false⟩) ∧
    name "A" ⟨[.property "b", .member 0], false⟩ = name "A" ⟨[.property "b#0"], false⟩ ∧
      (⟨[.property "b", .member 0], false⟩ : FacetPath) ≠ ⟨[.property "b#0"], false⟩ := by
  decide

end FacetPath

end ApiCatalog.Naming
