import ApiCatalog.Proofs.Analysis.References
import ApiCatalog.Proofs.Resolution.Items

set_option autoImplicit false

/-!
# Items of the arrays of an analysis

When an array of an analysis has several item references, and when it has exactly one. Several
references are alternatives: the types of an items schema without combinator, or its one type and
the enumeration of its texts, which is referred to besides the type and not instead of it.

## Main definitions

* `Extraction.ArraysFit`: what an extraction keeps about the arrays and about the memo.

## Main results

* `ApiCatalog.arraysFit_of_extract`: all arrays of an extraction fit their items.
* `ApiCatalog.item_references_of_analyze`: which items account for more than one reference.
* `ApiCatalog.two_item_references_of_textList`: a single type may do so.
-/

namespace ApiCatalog

namespace Extraction

/-- The memo is tallied, and all arrays fit. -/
def ArraysFit (document : Document) (state : ExtractionState) : Prop :=
  document.Tallies state.resolver ∧ document.ArraysFit state.resolver

/-- The pass over paths registers only arrays that fit. -/
theorem congruence_arraysFit (document : Document) (cancelAt : Option Nat) :
    Congruence document cancelAt cancelAt fun _ step _ => Preserves (ArraysFit document) step := by
  refine congruence_preserves ?_ (fun _ _ h => h) ?_
  · rintro diagnostic state answer state' hfit hstep
    cases hstep
    exact hfit
  · rintro name node hrequest state ⟨⟩ state' ⟨htallies, hfit⟩ hstep
    obtain ⟨resolution, resolver, hrun, rfl⟩ := resolveBound_ok hstep
    have hplaced : (Stage.atNode node name false).Placed document :=
      fun schema hnode => .request (hnode ▸ hrequest)
    exact ⟨hrun.tallies htallies, hrun.arraysFit hplaced htallies hfit⟩

/-- The resolution of a component registers only arrays that fit. -/
theorem arraysFit_resolveComponent {context : Context} {id : String} {node : Node}
    (hfind : context.document.schemas.find? id = some node) :
    Preserves (ArraysFit context.document) (ofResolver (resolveComponent context id node)) := by
  rintro state answer state' ⟨htallies, hfit⟩ hstep
  obtain ⟨resolver, hcomponent, rfl⟩ := ofResolver_ok hstep
  refine ⟨tallies_of_resolveComponent hcomponent hfind htallies, ?_⟩
  rcases resolveComponent_ok hcomponent with ⟨-, -, rfl⟩ | ⟨resolution, s, -, -, -, hrun, rfl⟩
  · exact hfit
  · have hplaced : (Stage.atNode node id false).Placed context.document :=
      fun schema hnode => .component (.inPlace (hnode ▸ hfind))
    exact (hrun.arraysFit hplaced htallies hfit).memoise

end Extraction

/-- **All arrays of an extraction fit their items.** -/
theorem arraysFit_of_extract {document : Document} {options : Options} {state : ExtractionState}
    (h : extract document options = .ok state) : document.ArraysFit state.resolver := by
  obtain ⟨s, hpaths, hcomponents⟩ := extract_passes h
  have hinit : Extraction.ArraysFit document options.initialState :=
    ⟨fun _ _ hfind => (nomatch hfind), fun _ hmodel => (nomatch hmodel)⟩
  have hs : Extraction.ArraysFit document s :=
    (Extraction.congruence_arraysFit document options.cancelAt).extractPaths _ _ _ hinit hpaths
  rcases hcomponents with ⟨-, hcomponents⟩ | ⟨-, rfl⟩
  · exact (Extraction.preserves_extractComponents (fun _ hentry =>
      Extraction.arraysFit_resolveComponent (SortedMap.find?_of_mem_entries hentry)) _ _ _ hs
      hcomponents).2
  · exact hs.2

/-- **Item references.** Every array of an analysis goes back to a schema that is resolved under the
array's name, has arrays among its types, and says what the items are. The array has more than one
item reference only if the schema that the items stand for, in place or through references, has no
combinator, and names more than one type or calls for an enumeration besides its one type. If that
schema has a combinator, or names one type and calls for no enumeration, there is exactly one item
reference. -/
theorem item_references_of_analyze {document : Document} {options : Options} {analysis : Analysis}
    (h : analyze document options = .ok analysis) {name : ModelName} {items : List ModelName}
    (hmem : .array name items ∈ analysis.models.models) :
    ∃ own node, document.Places own name ∧ own.composition? = none ∧
      own.types.contains .array = true ∧ own.items = some (.each node) ∧
      (1 < items.length → ∃ schema, document.Means node schema ∧ schema.composition? = none ∧
        (1 < schema.types.size ∨ schema.hasEnumeration = true)) ∧
      ∀ schema, document.Means node schema →
        (schema.composition? ≠ none ∨
          (schema.types.size = 1 ∧ schema.hasEnumeration = false)) → items.length = 1 := by
  obtain ⟨state, hextract, -, rfl⟩ := analyze_ok h
  obtain ⟨own, node, hplaces, hshape, hcalled, hitems, htallied⟩ :=
    arraysFit_of_extract hextract _ hmem
  refine ⟨own, node, hplaces, hshape, hcalled, hitems, fun hmany => ?_,
    fun schema hmeans hone => ?_⟩
  · rcases htallied with hone | ⟨schema, hmeans, hcount⟩
    · omega
    · exact ⟨schema, hmeans, Schema.of_one_lt_referenceCount (hcount ▸ hmany)⟩
  · rcases htallied with hcount | ⟨schema', hmeans', hcount⟩
    · exact hcount
    · rw [hcount, hmeans'.unique hmeans, Schema.referenceCount_eq_one hone]

/-- An array `L` whose items are what `U` is, which is a text or a number. -/
def unionList : Document :=
  .ofSchemas [
    ("L", .inline { types := .ofList [.array],
                    items := some (.each (.reference "#/components/schemas/U")) }),
    ("U", .inline { types := .ofList [.string, .integer] })]

/-- The array refers to both types, and so its items stand for a schema with more than one. -/
theorem item_references_of_unionList :
    ∃ analysis, analyze unionList {} = .ok analysis ∧
      .array "L" ["#/primitive/string", "#/primitive/integer"] ∈ analysis.models.models ∧
      ∃ own node schema, unionList.Places own "L" ∧ own.items = some (.each node) ∧
        unionList.Means node schema ∧ schema.composition? = none ∧
        (1 < schema.types.size ∨ schema.hasEnumeration = true) := by
  have hcheck : ((analyze unionList {}).toOption.any fun analysis => analysis.models.models.contains
      (.array "L" ["#/primitive/string", "#/primitive/integer"])) = true := by decide +kernel
  obtain ⟨analysis, h, hcontains⟩ := exists_of_any_toOption hcheck
  have hmem := List.contains_iff_mem.1 hcontains
  obtain ⟨own, node, hplaces, -, -, hitems, hmany, -⟩ := item_references_of_analyze h hmem
  obtain ⟨schema, hmeans, hshape, hunion⟩ := hmany (by decide)
  exact ⟨analysis, h, hmem, own, node, schema, hplaces, hitems, hmeans, hshape, hunion⟩

/-- Texts of which there is one. -/
def oneText : Schema :=
  { types := .ofList [.string], literals := [.text "a"] }

/-- An array `H` of such texts. -/
def textList : Document :=
  .ofSchemas [("H", .inline { types := .ofList [.array], items := some (.each (.inline oneText)) })]

/-- **A single type may account for two item references**: the items are texts, and the array refers
to the primitive type and to the enumeration. -/
theorem two_item_references_of_textList :
    (∃ own, textList.schemas.find? "H" = some (.inline own) ∧
      own.items = some (.each (.inline oneText))) ∧
    oneText.composition? = none ∧ oneText.types.size = 1 ∧
    ∃ analysis, analyze textList {} = .ok analysis ∧ analysis.succeeded = true ∧
      analysis.models.models.filter (fun model => model.kind = .array) =
        [.array "H" ["#/primitive/string", "H[]"]] := by
  have hcheck : ((analyze textList {}).toOption.any fun analysis => analysis.succeeded &&
      analysis.models.models.filter (fun model => model.kind = .array) =
        [.array "H" ["#/primitive/string", "H[]"]]) = true := by decide +kernel
  obtain ⟨analysis, h, hcheck⟩ := exists_of_any_toOption hcheck
  obtain ⟨hsucceeded, harrays⟩ := Bool.and_eq_true_iff.1 hcheck
  exact ⟨⟨_, rfl, rfl⟩, rfl, rfl, analysis, h, hsucceeded, of_decide_eq_true harrays⟩

end ApiCatalog
