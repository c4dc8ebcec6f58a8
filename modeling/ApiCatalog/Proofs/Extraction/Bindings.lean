import ApiCatalog.Proofs.Extraction.Growth
import ApiCatalog.Proofs.Resolution.Denotations

set_option autoImplicit false

/-!
# The bindings of an extraction

A name is bound to the references that some schema denotes which the document asks for under that
name; there are some, and all of them are registered. The first schema of a name that is resolved
with success decides, since a binding is never replaced.

## Main definitions

* `Document.BindsRequests`: all that is bound is denoted by a request, and is registered.

## Main results

* `ApiCatalog.bindsRequests_of_extract`: so it is at the end of an extraction.
-/

namespace ApiCatalog

/-- A list of references is what some schema denotes that is asked for under a name; there are some
references, and all of them are registered. -/
structure Document.IsBinding (document : Document) (state : ResolverState) (name : ModelName)
    (references : List ModelName) : Prop where
  denoted : ∃ node, (name, node) ∈ document.requests ∧
    document.Denotes node name false references
  nonempty : references ≠ []
  registered : ∀ reference ∈ references, state.repository.contains reference = true

/-- All that is bound is denoted by a request, and is registered. -/
def Document.BindsRequests (document : Document) (state : ExtractionState) : Prop :=
  ∀ name references, state.bindings.find? name = some references →
    document.IsBinding state.resolver name references

namespace Document

variable {document : Document} {state : ExtractionState}

/-- What is bound stays registered. -/
theorem IsBinding.mono {resolver resolver' : ResolverState} {name : ModelName}
    {references : List ModelName} (h : document.IsBinding resolver name references)
    (hgrows : resolver.Grows resolver') : document.IsBinding resolver' name references :=
  ⟨h.denoted, h.nonempty, fun reference hreference =>
    hgrows.contains (h.registered reference hreference)⟩

/-- The steps of the pass over paths bind names to what their schemas denote. -/
theorem congruence_bindsRequests (document : Document) (cancelAt : Option Nat) :
    Extraction.Congruence document cancelAt cancelAt fun _ step _ =>
      Extraction.Preserves (fun state => document.Recalls state.resolver ∧
        document.BindsRequests state) step := by
  refine Extraction.congruence_preserves ?_ (fun _ _ h => h) ?_
  · rintro diagnostic state answer state' ⟨hrecalls, hbinds⟩ hstep
    cases hstep
    exact ⟨hrecalls.mono (.record _ _) rfl, fun name references hfind =>
      (hbinds name references hfind).mono (.record _ _)⟩
  · rintro name node hrequest state ⟨⟩ state' ⟨hrecalls, hbinds⟩ hstep
    obtain ⟨resolution, resolver, hrun, rfl⟩ := Extraction.resolveBound_ok hstep
    obtain ⟨hrecalls', hrealized⟩ := hrun.denotes hrecalls
    refine ⟨hrecalls', fun other references hfind => ?_⟩
    have hold : state.bindings.find? other = some references →
        document.IsBinding resolver other references := fun hfind =>
      (hbinds other references hfind).mono hrun.grows
    simp only at hfind
    split at hfind
    · next hsucceeded =>
      rw [OrderedMap.find?_insertNew] at hfind
      cases hbefore : state.bindings.find? other with
      | some before =>
        rw [hbefore] at hfind
        cases hfind
        exact hold hbefore
      | none =>
        rw [hbefore, Option.none_or] at hfind
        split at hfind
        · next hname =>
          cases hname
          cases hfind
          obtain ⟨references, hdenotes, hrealizes⟩ := hrealized rfl hsucceeded
          rw [← hrealizes.eq] at hdenotes
          exact ⟨⟨node, hrequest, hdenotes⟩, hrealizes.nonempty, hrealizes.registered⟩
        · cases hfind
    · exact hold hfind

end Document

/-- **At the end of an extraction all that is bound is denoted by a request, and is registered.**

**Proof sketch.** `Runs.denotes` says so of each name when the pass over paths binds it, and the
pass over components binds no name. -/
theorem bindsRequests_of_extract {document : Document} {options : Options}
    {state : ExtractionState} (h : extract document options = .ok state) :
    document.BindsRequests state := by
  obtain ⟨s, hpaths, hcomponents⟩ := extract_passes h
  have hinit : document.Recalls options.initialState.resolver ∧
      document.BindsRequests options.initialState :=
    ⟨fun _ _ hmemo => (nomatch hmemo), fun _ _ hfind => (nomatch hfind)⟩
  obtain ⟨-, hbinds⟩ :=
    (document.congruence_bindsRequests options.cancelAt).extractPaths _ _ _ hinit hpaths
  rcases hcomponents with ⟨-, hcomponents⟩ | ⟨-, rfl⟩
  · obtain ⟨hgrows, -, hbindings⟩ := Extraction.grows_extractComponents hcomponents
    intro name references hfind
    rw [hbindings] at hfind
    exact (hbinds name references hfind).mono hgrows.resolver
  · exact hbinds

end ApiCatalog
