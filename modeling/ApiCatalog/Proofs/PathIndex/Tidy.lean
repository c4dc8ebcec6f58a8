import ApiCatalog.Proofs.PathIndex.Branches
import ApiCatalog.Proofs.PathIndex.Contents

set_option autoImplicit false

/-!
# Tidy indices

An index is tidy if it is proper, if each of its nodes is of the kind that its segment asks for, if
a node that has a map of endpoints has an endpoint, and if endpoints stand under their methods. An
index into which segments are laid as
their kinds ask for, whose nodes are bound and get endpoints, stays tidy.

## Main definitions

* `PathPart.Tidy`, `PathIndex.Tidy`: tidy nodes and indices.

## Main results

* `PathIndex.Tidy.getOrAdd`, `PathIndex.Tidy.bind`, `PathIndex.Tidy.insertEndpoint`: an index stays
  tidy in each of the ways in which it grows.
-/

namespace ApiCatalog

/-- A node is of the kind that its segment asks for, has an endpoint if it has a map of them, and
has its endpoints under their methods. -/
structure PathPart.Tidy (part : PathPart) : Prop where
  kind : part.kind.segmentKind = .ofSegment part.segment
  endpoints : part.endpoints ≠ some ∅
  methods : ∀ endpoints, part.endpoints = some endpoints →
    ∀ entry ∈ endpoints.entries, entry.1 = entry.2.method

/-- A new node is tidy. -/
theorem PathPart.tidy_leaf (segment : String) :
    (PathPart.leaf segment (.unbound (.ofSegment segment))).Tidy :=
  ⟨PartKind.segmentKind_unbound _, nofun, nofun⟩

namespace PathIndex

variable {index index' : PathIndex} {id : Nat}

/-- A proper index whose nodes are tidy. -/
structure Tidy (index : PathIndex) : Prop where
  proper : index.Proper
  parts : ∀ part ∈ index.parts, part.Tidy

/-- The empty index is tidy. -/
theorem tidy_empty : (∅ : PathIndex).Tidy where
  proper := proper_empty
  parts part hpart := by
    obtain rfl := List.mem_singleton.1 hpart
    exact PathPart.tidy_leaf "/"

namespace Tidy

/-- A change that leaves the outline alone keeps an index tidy, if it keeps nodes tidy. -/
theorem update (h : index.Tidy) {change : PathPart → PathPart}
    {keeps : ∀ part, (change part).children = part.children}
    (houtline : index.SameOutline (index.update id change keeps))
    (hchange : ∀ part : PathPart, part.Tidy → (change part).Tidy) :
    (index.update id change keeps).Tidy where
  proper := houtline.proper h.proper
  parts part hpart := by
    rcases Holds.mem_modify hpart with hold | ⟨old, hold, rfl⟩
    · exact h.parts part hold
    · exact hchange old (h.parts old hold)

/-- **A segment can be laid into a tidy index**, which stays tidy. -/
theorem getOrAdd (h : index.Tidy) {parent : Nat} {segment : String}
    (hadd : index.getOrAdd parent segment (.ofSegment segment) = .ok (id, index')) :
    index'.Tidy := by
  rcases getOrAdd_ok hadd with ⟨rfl, -⟩ | ⟨hparent, -, rfl⟩
  · exact h
  · refine ⟨Proper.addPart h.proper hparent, fun part hpart => ?_⟩
    rcases List.mem_append.1 hpart with hpart | hpart
    · rcases Holds.mem_modify hpart with hold | ⟨old, hold, rfl⟩
      · exact h.parts part hold
      · have hold := h.parts old hold
        exact ⟨hold.kind, hold.endpoints, hold.methods⟩
    · obtain rfl := List.mem_singleton.1 hpart
      exact PathPart.tidy_leaf segment

/-- A binding keeps an index tidy. -/
theorem bind (h : index.Tidy) {schema bound : ModelName}
    (hbind : index.bind id schema = .ok (bound, index')) : index'.Tidy := by
  have houtline := (sameOutline_bind hbind).1
  unfold PathIndex.bind at hbind
  split at hbind
  · cases hbind
  · split at hbind
    · cases hbind
    · cases hbind
      refine h.update houtline fun part hpart => ?_
      unfold bindPart
      split
      · next hkind => exact ⟨by rw [← hpart.kind, hkind]; rfl, hpart.endpoints, hpart.methods⟩
      · exact hpart

/-- An endpoint keeps an index tidy. -/
theorem insertEndpoint (h : index.Tidy) {endpoint : Endpoint}
    (hinsert : index.insertEndpoint id endpoint = .ok index') : index'.Tidy := by
  unfold PathIndex.insertEndpoint at hinsert
  split at hinsert
  · cases hinsert
  · split at hinsert
    · cases hinsert
    · cases hinsert
      refine h.update (sameOutline_update fun _ => rfl) fun part hpart =>
        ⟨hpart.kind, fun hnone => ?_, ?_⟩
      · have hfound := OrderedMap.find?_insert (part.endpoints.getD ∅) endpoint.method
          endpoint.method endpoint
        rw [Option.some.inj hnone, if_pos rfl] at hfound
        cases hfound
      · rintro _ ⟨⟩ entry hentry
        rcases OrderedMap.mem_entries_insert hentry with rfl | hold
        · rfl
        · cases hendpoints : part.endpoints with
          | none =>
            rw [hendpoints] at hold
            cases hold
          | some endpoints =>
            rw [hendpoints] at hold
            exact hpart.methods endpoints hendpoints entry hold

/-- **A node is a parameter exactly if its segment is written in braces.** -/
theorem isParameter_iff (h : index.Tidy) {part : PathPart} (hpart : part ∈ index.parts) :
    part.kind.segmentKind = .parameter ↔ isParameterSegment part.segment = true := by
  rw [(h.parts part hpart).kind, SegmentKind.ofSegment]
  split
  · next hbraces => exact iff_of_true rfl hbraces
  · next hbraces => exact iff_of_false nofun hbraces

end Tidy

end PathIndex

end ApiCatalog
