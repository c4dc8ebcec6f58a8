import ApiCatalog.Proofs.Resolution.Growth

set_option autoImplicit false

/-!
# Complaints about schemas

What the resolution of schemas records can be told from what the paths of a document give rise to,
by the wording alone: a reference that leads to no parameter, request body or response is never
reported in the words in which the same reference would be reported as one to a schema.

## Main definitions

* `Document.blamesSchema`: a diagnostic that the resolution of a schema may record.
* `Document.complaintsIn`: the diagnostics that are not such.

## Main results

* `Runs.complaintsIn_eq`: resolving schemas adds no other diagnostic.
* `Document.blamesSchema_of_lookUp`, `Document.blamesSchema_of_get`: a failed look-up among other
  components is another diagnostic.
-/

namespace ApiCatalog

namespace Document

variable (document : Document)

/-- A diagnostic that the resolution of a schema may record: the schema says too little, or a
reference in it names no component, or one that is no schema. -/
def blamesSchema : Diagnostic → Bool
  | .missingType _ => true
  | .booleanSchema _ => true
  | .missingArrayItems _ => true
  | .unresolvedReference _ target error =>
    error = "not an internal component reference" ||
      match componentName target, document.findSchema target with
      | .ok (some _), .ok (.error reason) => error = reason.message
      | _, _ => false
  | _ => false

/-- The diagnostics that blame no schema. -/
def complaintsIn (diagnostics : List Diagnostic) : List Diagnostic :=
  diagnostics.filter fun diagnostic => !document.blamesSchema diagnostic

variable {document}

/-- One diagnostic more, which blames a schema. -/
theorem complaintsIn_record_of_blames {diagnostic : Diagnostic}
    (h : document.blamesSchema diagnostic = true) (state : ResolverState) :
    document.complaintsIn (state.record diagnostic).diagnostics =
      document.complaintsIn state.diagnostics := by
  simp [complaintsIn, h]

/-- One diagnostic more, which blames no schema. -/
theorem complaintsIn_record {diagnostic : Diagnostic}
    (h : document.blamesSchema diagnostic = false) (state : ResolverState) :
    document.complaintsIn (state.record diagnostic).diagnostics =
      document.complaintsIn state.diagnostics ++ [diagnostic] := by
  simp [complaintsIn, h]

end Document

/-- **Resolving schemas adds no complaint** but those that blame a schema.

**Proof sketch.** Induction on the run. -/
theorem Runs.complaintsIn_eq {context : Context} {kind : StageKind} {active : List ModelName}
    {stage : Stage kind} {state state' : ResolverState} {answer : kind.Answer}
    (h : Runs context active stage state answer state') :
    context.document.complaintsIn state'.diagnostics =
      context.document.complaintsIn state.diagnostics := by
  induction h with
  | cancelled | finished | busy | allMembers | membersLeft | allProperties | noObject | knownObject
  | noArray | knownArray => rfl
  | refused | untyped | noItems | anyItems =>
    exact Document.complaintsIn_record_of_blames (by simp [Document.blamesSchema]) _
  | missing _ hname _ _ hfind =>
    exact Document.complaintsIn_record_of_blames (by simp [Document.blamesSchema, hname, hfind]) _
  | inline _ _ ih | abandoned _ _ _ ih | lostObject _ _ _ _ ih | lostArray _ _ _ _ _ ih
  | composed _ _ _ ih | object _ _ _ _ ih | array _ _ _ _ _ ih => exact ih
  | entered _ _ _ _ _ _ ih =>
    rw [ResolverState.diagnostics_memoise]
    exact ih
  | typed _ _ _ _ ihObject ihArray =>
    refine ihArray.trans (ihObject.trans ?_)
    rw [ResolverState.diagnostics_registerAll]
  | nextMember _ _ _ ihFirst ihRest | nextProperty _ _ ihFirst ihRest =>
    exact ihRest.trans ihFirst

/-! ## Wordings of failed look-ups -/

namespace ReferenceError

/-- The kind of component that was asked for, if another one was found. -/
def expected? : ReferenceError → Option ComponentKind
  | .mismatchedType _ expected => some expected
  | _ => none

/-- The letter that a message begins with. -/
def initial : ReferenceError → Char
  | .invalidType _ => 'I'
  | .mismatchedType _ _ => 'M'
  | .unresolvable _ => 'U'

/-- The word for schemas is the only one for a kind that ends in an `a`. -/
theorem getLast?_label (kind : ComponentKind) :
    kind.label.toList.getLast? = some 'a' ↔ kind = .schema := by
  cases kind <;> decide

/-- Messages begin with a letter that tells them apart. -/
theorem head?_message (error : ReferenceError) :
    error.message.toList.head? = some error.initial := by
  have hbegins : ∀ (first : Char) (begin rest : String), begin.toList.head? = some first →
      (begin ++ rest).toList.head? = some first := by
    intro first begin rest h
    rw [String.toList_append, List.head?_append, h, Option.some_or]
  cases error with
  | invalidType key => exact hbegins 'I' "Invalid type: " key (by decide)
  | unresolvable path => exact hbegins 'U' "Unresolvable path: " path (by decide)
  | mismatchedType found expected =>
    refine hbegins 'M' _ expected.label (hbegins 'M' _ " as a " (hbegins 'M' _ found.label ?_))
    decide

/-- A message about mismatched kinds ends in the word for the kind that was asked for. -/
theorem getLast?_message (found expected : ComponentKind) :
    (mismatchedType found expected).message.toList.getLast? = expected.label.toList.getLast? := by
  have hends : ∀ begin : String, (begin ++ expected.label).toList.getLast? =
      expected.label.toList.getLast? := by
    intro begin
    rw [String.toList_append, List.getLast?_append]
    cases expected <;> rfl
  exact hends _

/-- Errors with one message begin alike. -/
theorem initial_eq_of_message_eq {error error' : ReferenceError}
    (h : error.message = error'.message) : error.initial = error'.initial := by
  have hhead := error.head?_message
  rw [h, head?_message] at hhead
  exact (Option.some.inj hhead).symm

/-- **The message tells whether a schema was asked for** where another kind was found. -/
theorem expected?_eq_schema_of_message_eq {error error' : ReferenceError}
    (h : error.message = error'.message) (hexpected : error.expected? = some .schema) :
    error'.expected? = some .schema := by
  have hinitial := initial_eq_of_message_eq h
  cases error with
  | mismatchedType found expected =>
    cases hexpected
    cases error' with
    | mismatchedType found' expected' =>
      have hlast := getLast?_message found' expected'
      rw [← h, getLast?_message, (getLast?_label .schema).2 rfl] at hlast
      rw [expected?, (getLast?_label expected').1 hlast.symm]
    | invalidType key => cases hinitial
    | unresolvable path => cases hinitial
  | invalidType key => cases hexpected
  | unresolvable path => cases hexpected

/-- No message is that about a reference which does not begin like one within the document. -/
theorem message_ne_external (error : ReferenceError) :
    error.message ≠ "not an internal component reference" := by
  intro h
  have hfirst : "not an internal component reference".toList.head? = some 'n' := by decide
  rw [← h, head?_message] at hfirst
  cases error <;> cases hfirst

end ReferenceError

section LookUp

variable {α : Type} {kind : ComponentKind} {entries : SortedMap (OrReference α)} {path : String}
  {error : ReferenceError}

/-- A look-up that finds another kind says which one it asked for. -/
theorem expected?_of_nameFor (h : Reference.nameFor kind path = .ok (.error error)) :
    ∀ expected, error.expected? = some expected → expected = kind := by
  unfold Reference.nameFor at h
  intro expected hexpected
  split at h
  · cases h
  · split at h
    · next hkind =>
      cases h
      unfold Reference.kind at hkind
      split at hkind
      · cases hkind
      · cases hkind
        cases hexpected
    · split at h
      · cases h
      · cases h
        cases hexpected
        rfl

/-- A look-up through aliases says which kind it asked for. -/
theorem expected?_of_lookUpFrom {visited : List String}
    (h : lookUpFrom kind entries visited path = .ok (.error error)) :
    ∀ expected, error.expected? = some expected → expected = kind := by
  fun_induction lookUpFrom kind entries visited path with
  | case1 => cases h
  | case2 visited path reason hname =>
    cases h
    exact expected?_of_nameFor hname
  | case3 =>
    cases h
    exact fun _ hexpected => nomatch hexpected
  | case4 => cases h
  | case5 => cases h
  | case6 _ _ _ _ _ _ _ ih => exact ih h

/-- A reference to a component of a known kind other than the one asked for. -/
theorem lookUp_of_mismatch {reference : Reference} {found : ComponentKind}
    (hpath : Reference.ofPath path = .ok reference) (hkind : reference.kind = .ok found)
    (hne : found ≠ kind) :
    lookUp kind entries path = .ok (.error (.mismatchedType found kind)) := by
  have hname : Reference.nameFor kind path = .ok (.error (.mismatchedType found kind)) := by
    simp [Reference.nameFor, hpath, hkind, hne]
  rw [lookUp, lookUpFrom, hname]

/-- **A failed look-up among other components blames no schema.**

**Proof sketch.** If the reference names a schema, the other look-up says so, and asked for another
kind; if it names something else, the look-up of a schema says that it asked for one. The last
letter of the message tells these apart. -/
theorem Document.blamesSchema_of_lookUp {document : Document} (hkind : kind ≠ .schema)
    (h : lookUp kind entries path = .ok (.error error)) (hint : String) :
    document.blamesSchema (.unresolvedReference hint path error.message) = false := by
  rw [blamesSchema, Bool.or_eq_false_iff]
  refine ⟨decide_eq_false error.message_ne_external, ?_⟩
  split
  · next name reason hname hfind =>
    rw [decide_eq_false_iff_not]
    intro hsame
    have herror := expected?_of_lookUpFrom h
    have hreason := expected?_of_lookUpFrom hfind
    obtain ⟨reference, found, hpath, hfound⟩ : ∃ reference found,
        Reference.ofPath path = .ok reference ∧ reference.kind = .ok found := by
      unfold componentName at hname
      split at hname
      · cases hname
      · split at hname
        · cases hname
        · next reference hpath =>
          split at hname
          · cases hname
          · next found hfound => exact ⟨reference, found, hpath, hfound⟩
    by_cases hschema : found = .schema
    · subst hschema
      rw [lookUp_of_mismatch hpath hfound hkind.symm] at h
      cases h
      -- the look-up of a schema never says that it asked for another kind
      have hinitial := ReferenceError.initial_eq_of_message_eq hsame
      cases reason with
      | mismatchedType found' expected =>
        obtain rfl := hreason expected rfl
        have hback := ReferenceError.expected?_eq_schema_of_message_eq hsame.symm rfl
        exact hkind (Option.some.inj hback)
      | invalidType key => cases hinitial
      | unresolvable path => cases hinitial
    · have hmismatch : document.findSchema path =
          .ok (.error (.mismatchedType found .schema)) := lookUp_of_mismatch hpath hfound hschema
      rw [hmismatch] at hfind
      cases hfind
      have hback := ReferenceError.expected?_eq_schema_of_message_eq hsame.symm rfl
      exact hkind (herror _ hback).symm
  · rfl

/-- What is written in place can be used, and what is referred to is looked up: so a part that leads
nowhere blames no schema. -/
theorem Document.blamesSchema_of_get {document : Document} {part : OrReference α}
    (hkind : kind ≠ .schema) (h : part.get kind entries = .ok (.error error)) (hint : String) :
    document.blamesSchema (.unresolvedReference hint (part.target?.getD "") error.message) =
      false := by
  cases part with
  | inline value => cases h
  | reference path => exact blamesSchema_of_lookUp hkind h hint

end LookUp

end ApiCatalog
