import Traceability.Proofs.Spec.Catalogue
import Traceability.Trace.Index

/-!
# Links of the trace index

Each list of the index holds what some marker or some reference links to its key, and nothing else.
-/
namespace Traceability.TraceIndex

open Spec

variable {c : Catalogue} {markers : List Marker} {id : Text} {l : Location}

theorem mem_markerLinks {p : Marker → Bool} :
    (id, l) ∈ markerLinks p markers ↔ ∃ m ∈ markers, p m = true ∧ m.id = id ∧ m.location = l := by
  simp only [markerLinks, List.mem_map, List.mem_filter, Prod.mk.injEq]
  constructor
  · intro linked
    obtain ⟨m, ⟨member, holds⟩, same, place⟩ := linked
    exact ⟨m, member, holds, same, place⟩
  · intro linked
    obtain ⟨m, member, holds, same, place⟩ := linked
    exact ⟨m, ⟨member, holds⟩, same, place⟩

theorem mem_codeOf : l ∈ (build c markers).codeOf.get id ↔
    ∃ m ∈ markers, m.kind = .implementation ∧ m.id = id ∧ m.location = l := by
  refine OrderedMultimap.mem_get_ofList.trans (mem_markerLinks.trans ?_)
  simp only [decide_eq_true_eq]

theorem mem_testsOf : l ∈ (build c markers).testsOf.get id ↔
    ∃ m ∈ markers, m.kind = .test ∧ namesProperty m.id = false ∧ m.id = id ∧ m.location = l := by
  refine OrderedMultimap.mem_get_ofList.trans (mem_markerLinks.trans ?_)
  simp only [Bool.and_eq_true, decide_eq_true_eq, Bool.not_eq_true', and_assoc]

theorem mem_propertyTestsOf : l ∈ (build c markers).propertyTestsOf.get id ↔
    ∃ m ∈ markers, m.kind = .test ∧ namesProperty m.id = true ∧ m.id = id ∧ m.location = l := by
  refine OrderedMultimap.mem_get_ofList.trans (mem_markerLinks.trans ?_)
  simp only [Bool.and_eq_true, decide_eq_true_eq, and_assoc]

theorem mem_componentCodeOf : l ∈ (build c markers).componentCodeOf.get id ↔
    ∃ m ∈ markers, m.kind = .component ∧ m.id = id ∧ m.location = l := by
  refine OrderedMultimap.mem_get_ofList.trans (mem_markerLinks.trans ?_)
  simp only [decide_eq_true_eq]

/-- The tests of an identifier are filed with the criteria or with the properties. -/
theorem mem_tests_or : (l ∈ (build c markers).testsOf.get id ∨
      l ∈ (build c markers).propertyTestsOf.get id) ↔
    ∃ m ∈ markers, m.kind = .test ∧ m.id = id ∧ m.location = l := by
  rw [mem_testsOf, mem_propertyTestsOf]
  constructor
  · intro linked
    rcases linked with ⟨m, member, kind, _, same⟩ | ⟨m, member, kind, _, same⟩
    · exact ⟨m, member, kind, same⟩
    · exact ⟨m, member, kind, same⟩
  · intro linked
    obtain ⟨m, member, kind, same⟩ := linked
    cases shape : namesProperty m.id with
    | false => exact Or.inl ⟨m, member, kind, shape, same⟩
    | true => exact Or.inr ⟨m, member, kind, shape, same⟩

/-! ## What is linked -/

theorem mem_keys_markerLinks {p : Marker → Bool} :
    id ∈ (OrderedMultimap.ofList (markerLinks p markers)).keys ↔
      ∃ m ∈ markers, p m = true ∧ m.id = id := by
  rw [OrderedMultimap.mem_keys_ofList]
  simp only [mem_markerLinks]
  constructor
  · intro linked
    obtain ⟨_, m, member, holds, same, _⟩ := linked
    exact ⟨m, member, holds, same⟩
  · intro linked
    obtain ⟨m, member, holds, same⟩ := linked
    exact ⟨m.location, m, member, holds, same, rfl⟩

theorem mem_referenceLinks {kind : CrossRefKind} {owner target : Text} :
    (owner, target) ∈ referenceLinks c kind ↔ ∃ d ∈ c.documents, ∃ r ∈ d.crossRefs,
      r.owner = some owner ∧ r.kind = kind ∧ target ∈ r.targets := by
  simp only [referenceLinks, List.mem_flatMap]
  constructor
  · intro linked
    obtain ⟨d, document, r, made, linked⟩ := linked
    cases owned : r.owner with
    | none =>
      rw [owned] at linked
      cases linked
    | some o =>
      rw [owned] at linked
      dsimp only at linked
      split at linked
      · next same =>
        obtain ⟨t, aimed, pair⟩ := List.mem_map.mp linked
        cases pair
        exact ⟨d, document, r, made, owned, same, aimed⟩
      · cases linked
  · intro linked
    obtain ⟨d, document, r, made, owned, same, aimed⟩ := linked
    refine ⟨d, document, r, made, ?_⟩
    rw [owned]
    dsimp only
    rw [if_pos same]
    exact List.mem_map.mpr ⟨target, aimed, rfl⟩

theorem mem_requirementLinks {requirement criterion : Text} :
    (requirement, criterion) ∈ requirementLinks c ↔
      criterion ∈ c.idsOf .criterion ∧ requirementFor? c criterion = some requirement := by
  simp only [requirementLinks, List.mem_filterMap, Option.map_eq_some_iff, Prod.mk.injEq]
  constructor
  · intro linked
    obtain ⟨a, defined, r, parent, rfl, rfl⟩ := linked
    exact ⟨defined, parent⟩
  · intro linked
    obtain ⟨defined, parent⟩ := linked
    exact ⟨criterion, defined, requirement, parent, rfl, rfl⟩

/-- The located identifiers are those of the definitions in force. -/
theorem located_iff : (∃ l, (build c markers).locations.get? id = some l) ↔ c.defines id = true := by
  rw [← OrderedMap.mem_keys_iff, Catalogue.defines_iff, ← OrderedMap.mem_keys_iff]
  refine OrderedMap.mem_keys_ofList.trans ?_
  simp only [OrderedMap.keys, List.mem_map, Prod.exists, Prod.mk.injEq]
  constructor
  · intro linked
    obtain ⟨_, k, d, member, rfl, _⟩ := linked
    exact ⟨k, d, member, rfl⟩
  · intro linked
    obtain ⟨k, d, member, rfl⟩ := linked
    exact ⟨d.location, k, d, member, rfl, rfl⟩

end Traceability.TraceIndex
