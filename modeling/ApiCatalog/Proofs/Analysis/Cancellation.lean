import ApiCatalog.Proofs.Analysis.References
import ApiCatalog.Proofs.Extraction.Cancellation

set_option autoImplicit false

/-!
# Extractions that are cancelled

What an extraction leaves behind that is cancelled at the registration of a certain model, compared
with the one that is carried through. The models are the same up to the cancellation and somewhat
beyond. After that, there may be compositions without all of their members: those that the place
of the cancellation is inside of.

## Main definitions

* `ApiCatalog.endState`: the state at the end of the passes, whichever way they end.

## Main results

* `ApiCatalog.models_of_cancelAt`: the models that a cancelled extraction leaves.
* `ApiCatalog.not_prefix_of_cancelAt`: they need not be the first ones of the complete extraction.
-/

namespace ApiCatalog

/-- The state at the end of the passes over a document, even if something has ended them early. -/
def endState (document : Document) (options : Options) : ExtractionState :=
  Extraction.stateAfter (passes document options) options.initialState

/-- The passes of an extraction are cut short if the extraction is cancelled. -/
theorem cutShort_passes (document : Document) (options : Options) (limit : Nat) :
    Extraction.CutShort document limit (passes document { options with cancelAt := none })
      (passes document { options with cancelAt := some limit }) :=
  (Extraction.congruence_cutShort document limit).passes options
    Extraction.cutShort_extractComponents

/-- **The models that a cancelled extraction leaves**: an extraction that is to be cancelled when
the number of models reaches a limit does the same as the complete one, or it is cancelled and
leaves models that the complete one registers first, at least as many as the limit says, and
possibly unfinished compositions after them. Without combinators in the document, its models are
the first ones of the complete extraction.

**Proof sketch.** Every resolution of the complete extraction has one beside it that is cut short
(`Runs.cut`), and the passes are made up of these (`Extraction.congruence_cutShort`). -/
theorem models_of_cancelAt {document : Document} {options : Options}
    {complete cut : ExtractionState} {limit : Nat}
    (h : extract document { options with cancelAt := none } = .ok complete)
    (hbegin : options.cancelled = false)
    (hcut : endState document { options with cancelAt := some limit } = cut) :
    (cut = complete ∨
      (cut.resolver.cancelled = true ∧
        ∃ kept unfinished, cut.resolver.repository.models = kept ++ unfinished ∧
          kept <+: complete.resolver.repository.models ∧ limit ≤ kept.length ∧
          ∀ model ∈ unfinished, document.Unfinished complete.resolver.repository model)) ∧
    ((∀ schema, document.Contains (.inline schema) → schema.composition? = none) →
      cut.resolver.repository.models <+: complete.resolver.repository.models) := by
  have hend : cut = complete ∨ Extraction.Stopped document limit complete cut := by
    subst hcut
    rcases (cutShort_passes document options limit).live _ _ _ hbegin (passes_of_extract h) with
      hsame | hstopped
    · exact .inl (Extraction.stateAfter_of_ok hsame)
    · exact .inr hstopped
  refine ⟨hend, fun hplain => ?_⟩
  rcases hend with rfl | ⟨-, kept, unfinished, hmodels, hkept, -, hunfinished⟩
  · exact List.prefix_rfl
  · have hnone : unfinished = [] := by
      refine List.eq_nil_iff_forall_not_mem.2 fun model hmodel => ?_
      obtain ⟨schema, kind, members, -, -, hschema, hshape, -⟩ := hunfinished model hmodel
      rw [hplain schema hschema] at hshape
      cases hshape
    rw [hmodels, hnone, List.append_nil]
    exact hkept

/-- A union with an object for its only member. -/
def soleMember : Document :=
  .ofSchemas [
    ("H", .inline { oneOf := [.inline {
      types := .ofList [.object],
      properties := [("p", .inline { types := .ofList [.integer] }),
                     ("q", .inline { types := .ofList [.string] })] }] })]

/-- The first model of the union is kept if the extraction is cancelled there. -/
theorem models_of_cancelAt_soleMember :
    ∃ complete cut, extract soleMember {} = .ok complete ∧
      endState soleMember { cancelAt := some 1 } = cut ∧ cut.resolver.cancelled = true ∧
      ∃ kept unfinished, cut.resolver.repository.models = kept ++ unfinished ∧
        kept <+: complete.resolver.repository.models ∧ 1 ≤ kept.length ∧
        ∀ model ∈ unfinished, soleMember.Unfinished complete.resolver.repository model := by
  have hcheck : ((extract soleMember {}).toOption.any fun complete =>
      !complete.resolver.cancelled) = true := by decide +kernel
  obtain ⟨complete, h, hend⟩ := exists_of_any_toOption hcheck
  have hcancelled : (endState soleMember { cancelAt := some 1 }).resolver.cancelled = true := by
    decide +kernel
  rcases (@models_of_cancelAt soleMember {} complete _ 1 h rfl rfl).1 with hsame | ⟨-, hbreaks⟩
  · rw [hsame] at hcancelled
    rw [hcancelled] at hend
    cases hend
  · exact ⟨complete, _, h, rfl, hcancelled, hbreaks⟩

/-- **The models of a cancelled extraction need not be the first ones of the complete one**: the
cancellation strikes inside the member of the union, which is registered without it. -/
theorem not_prefix_of_cancelAt :
    ∃ complete cut, extract soleMember {} = .ok complete ∧
      endState soleMember { cancelAt := some 1 } = cut ∧
      cut.resolver.repository.names = ["#/primitive/integer", "H"] ∧
      cut.resolver.repository.find? "H" = some (.composition "H" .oneOf []) ∧
      complete.resolver.repository.names =
        ["#/primitive/integer", "#/primitive/string", "H#0", "H"] ∧
      complete.resolver.repository.find? "H" = some (.composition "H" .oneOf ["H#0"]) ∧
      ¬ cut.resolver.repository.models <+: complete.resolver.repository.models := by
  have hcut : (endState soleMember { cancelAt := some 1 }).resolver.repository.models =
      [.primitive .integer, .composition "H" .oneOf []] := by decide +kernel
  have hcheck : ((extract soleMember {}).toOption.any fun complete =>
      complete.resolver.repository.names =
        ["#/primitive/integer", "#/primitive/string", "H#0", "H"] &&
      complete.resolver.repository.find? "H" = some (.composition "H" .oneOf ["H#0"])) = true := by
    decide +kernel
  obtain ⟨complete, h, hcheck⟩ := exists_of_any_toOption hcheck
  obtain ⟨hnames, hunion⟩ := Bool.and_eq_true_iff.1 hcheck
  have hnames := of_decide_eq_true hnames
  refine ⟨complete, _, h, rfl, by rw [Repository.names, hcut]; rfl,
    by rw [Repository.find?, hcut]; rfl, hnames, of_decide_eq_true hunion, fun hprefix => ?_⟩
  have hprefix := hprefix.map Model.name
  rw [hcut, ← Repository.names, hnames] at hprefix
  revert hprefix
  decide

end ApiCatalog
