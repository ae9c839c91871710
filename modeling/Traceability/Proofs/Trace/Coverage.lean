import Traceability.Command.Readers
import Traceability.Proofs.Consistency
import Traceability.Proofs.Spec.Document
import Traceability.Proofs.Trace.Chain
import Traceability.Proofs.Trace.Index

/-!
# Checks and traces agree

A check reports a criterion as uncovered when a trace of it has no tests. And when a check finds no
orphaned marker and no broken reference, all that the index links is defined, so that no trace loses
anything on its way.
-/
namespace Traceability

open Spec

/-- Whether a multimap links an identifier to others, or others to it. -/
def OrderedMultimap.Mentions (m : OrderedMultimap Text Text) (id : Text) : Prop :=
  id ∈ m.keys ∨ ∃ k, id ∈ m.get k

namespace TraceIndex

/-- The links among the identifiers of specs. -/
def specLinks (i : TraceIndex) : List (OrderedMultimap Text Text) :=
  [i.criteriaOf, i.componentsOf, i.implementedBy, i.validatedBy]

/-- Whether an identifier has a location. -/
def Locates (i : TraceIndex) (id : Text) : Prop := ∃ l, i.locations.get? id = some l

/-- All that is marked is defined, all that is linked has a location, and all that is linked to an
identifier is found by a trace. -/
structure Grounded (i : TraceIndex) (c : Catalogue) : Prop where
  code : ∀ id ∈ i.codeOf.keys, c.defines id = true
  tests : ∀ id ∈ i.testsOf.keys, c.defines id = true
  propertyTests : ∀ id ∈ i.propertyTestsOf.keys, c.defines id = true
  componentCode : ∀ id ∈ i.componentCodeOf.keys, c.definesAs .component id = true
  links : ∀ m ∈ i.specLinks, ∀ id, m.Mentions id → i.Locates id
  requirements : ∀ a r, i.requirementOf.get? a = some r → i.Locates a ∧ i.Locates r
  traced : ∀ m ∈ i.specLinks, ∀ kind id,
    ((m.get id).filterMap (TraceChain.specNode? i kind)).map (·.id) = m.get id

variable {c : Catalogue} {markers : List Marker}

theorem mentions_ofList {pairs : List (Text × Text)} {id : Text} :
    (OrderedMultimap.ofList pairs).Mentions id ↔ ∃ other, (id, other) ∈ pairs ∨ (other, id) ∈ pairs := by
  simp only [OrderedMultimap.Mentions, OrderedMultimap.mem_keys_ofList,
    OrderedMultimap.mem_get_ofList]
  constructor
  · intro mentioned
    rcases mentioned with ⟨other, left⟩ | ⟨other, right⟩
    · exact ⟨other, Or.inl left⟩
    · exact ⟨other, Or.inr right⟩
  · intro mentioned
    rcases mentioned with ⟨other, left | right⟩
    · exact Or.inl ⟨other, left⟩
    · exact Or.inr ⟨other, right⟩

/-- Where all that is linked has a location, a trace loses nothing of it. -/
theorem map_id_specNodes {i : TraceIndex} {ids : List Text} (located : ∀ id ∈ ids, i.Locates id)
    (kind : NodeKind) : (ids.filterMap (TraceChain.specNode? i kind)).map (·.id) = ids := by
  induction ids with
  | nil => rfl
  | cons id rest ih =>
    obtain ⟨l, here⟩ := located id List.mem_cons_self
    have node : TraceChain.specNode? i kind id = some ⟨id, kind, l⟩ := by
      rw [TraceChain.specNode?, here]
      rfl
    rw [List.filterMap_cons_some node, List.map_cons,
      ih fun other member => located other (List.mem_cons_of_mem _ member)]

theorem locates_of_mentions {i : TraceIndex} {pairs : List (Text × Text)}
    (located : ∀ a b, (a, b) ∈ pairs → i.Locates a ∧ i.Locates b) {id : Text}
    (mentioned : (OrderedMultimap.ofList pairs).Mentions id) : i.Locates id := by
  obtain ⟨other, left | right⟩ := mentions_ofList.mp mentioned
  · exact (located id other left).1
  · exact (located other id right).2

theorem locates_swap {i : TraceIndex} {pairs : List (Text × Text)}
    (located : ∀ a b, (a, b) ∈ pairs → i.Locates a ∧ i.Locates b) :
    ∀ a b, (a, b) ∈ pairs.map Prod.swap → i.Locates a ∧ i.Locates b := by
  intro a b member
  obtain ⟨⟨x, y⟩, among, same⟩ := List.mem_map.mp member
  cases same
  exact (located _ _ among).symm

variable {documents : List Document}

theorem locates_requirementLinks {requirement criterion : Text}
    (linked : (requirement, criterion) ∈ requirementLinks (.ofDocuments documents)) :
    (build (.ofDocuments documents) markers).Locates requirement ∧
      (build (.ofDocuments documents) markers).Locates criterion := by
  obtain ⟨listed, parent⟩ := mem_requirementLinks.mp linked
  obtain ⟨_, defined⟩ := Option.filter_eq_some_iff.mp parent
  constructor
  · exact located_iff.mpr (Catalogue.defines_of_definesAs defined)
  · exact located_iff.mpr (Catalogue.defines_of_definesAs (Catalogue.mem_idsOf_iff.mp listed))

/-- Both ends of a reference are defined: its owner where it stands, its targets as far as no check
reports them. -/
theorem locates_referenceLinks (parsed : ∀ d ∈ documents, d.Parsed)
    (found : ∀ f ∈ Consistency.checkSpecs (.ofDocuments documents) markers,
      f.code ≠ .brokenCrossRef)
    {kind : CrossRefKind} {owner target : Text}
    (linked : (owner, target) ∈ referenceLinks (.ofDocuments documents) kind) :
    (build (.ofDocuments documents) markers).Locates owner ∧
      (build (.ofDocuments documents) markers).Locates target := by
  obtain ⟨d, document, r, member, owned, _, aimed⟩ := mem_referenceLinks.mp linked
  constructor
  · obtain ⟨x, defined, same⟩ := (parsed d document).defines_owner member owned
    exact located_iff.mpr (Catalogue.defines_ofDocuments_iff.mpr ⟨d, document, x, defined, same⟩)
  · exact located_iff.mpr (Consistency.defines_of_checkSpecs found document member aimed)

theorem locates_specLinks (parsed : ∀ d ∈ documents, d.Parsed)
    (found : ∀ f ∈ Consistency.checkSpecs (.ofDocuments documents) markers,
      f.code ≠ .brokenCrossRef)
    {m : OrderedMultimap Text Text} (among : m ∈ (build (.ofDocuments documents) markers).specLinks)
    {id : Text} (mentioned : m.Mentions id) :
    (build (.ofDocuments documents) markers).Locates id := by
  have references : ∀ kind a b, (a, b) ∈ referenceLinks (.ofDocuments documents) kind →
      (build (.ofDocuments documents) markers).Locates a ∧
        (build (.ofDocuments documents) markers).Locates b :=
    fun kind a b => locates_referenceLinks parsed found
  simp only [specLinks, List.mem_cons, List.not_mem_nil, or_false] at among
  rcases among with rfl | rfl | rfl | rfl
  · exact locates_of_mentions (fun a b => locates_requirementLinks) mentioned
  · exact locates_of_mentions (locates_swap (references .implements)) mentioned
  · exact locates_of_mentions (references .implements) mentioned
  · exact locates_of_mentions (references .validates) mentioned

theorem defines_of_mem_keys_markerLinks [CharacterNames] {idPattern : Text} {findings : List Finding}
    (checked : Consistency.checkCode idPattern c markers = .ok findings)
    (noOrphan : ∀ f ∈ findings, f.code ≠ .orphanedMarker) {p : Marker → Bool} :
    ∀ id ∈ (OrderedMultimap.ofList (markerLinks p markers)).keys, c.defines id = true := by
  intro id key
  obtain ⟨m, member, _, rfl⟩ := mem_keys_markerLinks.mp key
  exact Consistency.defines_id_of_checkCode checked noOrphan member

/-- Where nothing is orphaned and nothing is broken, the index stands on what is defined. -/
theorem grounded [CharacterNames] (parsed : ∀ d ∈ documents, d.Parsed) {idPattern : Text}
    {findings : List Finding}
    (checked : Consistency.checkCode idPattern (.ofDocuments documents) markers = .ok findings)
    (noOrphan : ∀ f ∈ findings, f.code ≠ .orphanedMarker)
    (noBroken : ∀ f ∈ Consistency.checkSpecs (.ofDocuments documents) markers,
      f.code ≠ .brokenCrossRef) :
    (build (.ofDocuments documents) markers).Grounded (.ofDocuments documents) where
  code := defines_of_mem_keys_markerLinks checked noOrphan
  tests := defines_of_mem_keys_markerLinks checked noOrphan
  propertyTests := defines_of_mem_keys_markerLinks checked noOrphan
  -- Only code of components has to name a component; the other markers may name anything defined.
  componentCode := by
    intro id key
    obtain ⟨m, member, kind, rfl⟩ := mem_keys_markerLinks.mp key
    have defined := Consistency.defines_of_checkCode checked noOrphan member
    rwa [if_pos (of_decide_eq_true kind)] at defined
  links := fun m among id => locates_specLinks parsed noBroken among
  requirements := by
    intro a r found
    exact locates_swap (fun a b => locates_requirementLinks) a r
      (OrderedMap.mem_of_get?_ofList found)
  traced := by
    intro m among kind id
    exact map_id_specNodes (fun other linked =>
      locates_specLinks parsed noBroken among (Or.inr ⟨id, linked⟩)) kind

end TraceIndex

/-! ## Criteria without tests -/

namespace TraceChain

theorem distinct_eq_nil_iff {nodes : List TraceNode} : distinct nodes = [] ↔ nodes = [] := by
  cases nodes with
  | nil => exact ⟨fun _ => rfl, fun _ => rfl⟩
  | cons n rest => simp [distinct]

/-- The tests in the trace of a criterion are those of the criterion itself. -/
theorem tests_resolve {i : TraceIndex} {id : Text} (criterion : Identifier.kind id = .criterion) :
    (resolve i {} id).tests = distinct (nodesAt .test id (i.testsOf.get id)) := by
  have own : (fromCriterion i {} id).tests = nodesAt .test id (i.testsOf.get id) := rfl
  rw [resolve, criterion]
  change inScope {} (fromCriterion i {} id).tests = _
  rw [inScope_default, own]

theorem tests_resolve_eq_nil_iff {i : TraceIndex} {id : Text}
    (criterion : Identifier.kind id = .criterion) :
    (resolve i {} id).tests = [] ↔ i.testsOf.get id = [] := by
  rw [tests_resolve criterion, distinct_eq_nil_iff, nodesAt, List.map_eq_nil_iff]

end TraceChain

namespace TraceIndex

theorem testsOf_eq_nil_iff {c : Catalogue} {markers : List Marker} {id : Text}
    (criterion : namesProperty id = false) :
    (build c markers).testsOf.get id = [] ↔ (Consistency.tested markers).elem id = false := by
  rw [List.eq_nil_iff_forall_not_mem, Bool.eq_false_iff, ne_eq, List.elem_eq_mem,
    decide_eq_true_iff, Consistency.tested]
  simp only [mem_testsOf, List.mem_map, List.mem_filter, decide_eq_true_eq]
  constructor
  · intro none tested
    obtain ⟨m, ⟨member, kind⟩, rfl⟩ := tested
    exact none m.location ⟨m, member, kind, criterion, rfl, rfl⟩
  · intro none l tested
    obtain ⟨m, member, kind, _, same, _⟩ := tested
    exact none ⟨m, ⟨member, kind⟩, same⟩

end TraceIndex

namespace Consistency

variable {documents : List Document} {markers : List Marker} {findings : List Finding}

/-- At most one report is about a given identifier. -/
theorem filter_uncoveredCriteria {a : Text} {d : Definition}
    (found : (Catalogue.ofDocuments documents).definitions.get? a = some d) :
    (uncoveredCriteria (.ofDocuments documents) markers).filter (·.id = some a) =
      if d.kind = .criterion ∧ (tested markers).elem a = false then [uncovered d] else [] := by
  have same : d.id = a := (Catalogue.mem_of_get?_ofDocuments found).2
  have about : ∀ x : Definition, decide ((uncovered x).id = some a) = decide (x.id = a) := by
    intro x
    rw [decide_eq_decide]
    exact Option.some_inj
  rw [uncoveredCriteria, List.filter_map, List.filter_filter]
  simp only [Function.comp_def, about]
  rw [List.filter_congr fun x _ => Bool.and_comm _ _, ← List.filter_filter,
    Catalogue.filter_values found, List.filter_singleton, same]
  by_cases uncoveredHere : d.kind = .criterion ∧ (tested markers).elem a = false
  · rw [if_pos uncoveredHere, uncoveredHere.1, uncoveredHere.2]
    rfl
  · rw [if_neg uncoveredHere]
    rw [not_and, Bool.not_eq_false] at uncoveredHere
    by_cases criterion : d.kind = .criterion
    · rw [uncoveredHere criterion, Bool.not_true, Bool.and_false]
      rfl
    · rw [decide_eq_false criterion, Bool.false_and]
      rfl

/-- A criterion is reported once, where it is defined, when its trace has no tests, and else not. -/
theorem filter_uncovered_eq [CharacterNames] (parsed : ∀ d ∈ documents, d.Parsed) {idPattern : Text}
    (checked : checkCode idPattern (.ofDocuments documents) markers = .ok findings) {a : Text}
    {d : Definition} (found : (Catalogue.ofDocuments documents).definitions.get? a = some d)
    (kind : d.kind = .criterion) :
    findings.filter (fun f => f.code = .uncoveredCriterion ∧ f.id = some a) =
      if (TraceChain.resolve (TraceIndex.build (.ofDocuments documents) markers) {} a).tests = []
      then [uncovered d] else [] := by
  obtain ⟨⟨document, member, inside⟩, same⟩ := Catalogue.mem_of_get?_ofDocuments found
  obtain ⟨t, rest, read⟩ := (parsed document member).criterion inside kind
  rw [same] at read
  have untested : (TraceIndex.build (.ofDocuments documents) markers).testsOf.get a = [] ↔
      (tested markers).elem a = false :=
    TraceIndex.testsOf_eq_nil_iff (Identifier.not_includes_propertyMark read)
  have both : (fun f : Finding => decide (f.code = .uncoveredCriterion ∧ f.id = some a)) =
      fun f => decide (f.id = some a) && decide (f.code = .uncoveredCriterion) := by
    funext f
    rw [Bool.decide_and, Bool.and_comm]
  have reported : (d.kind = .criterion ∧ (tested markers).elem a = false) ↔
      (TraceChain.resolve (TraceIndex.build (.ofDocuments documents) markers) {} a).tests = [] := by
    rw [TraceChain.tests_resolve_eq_nil_iff (Identifier.kind_of_criterion read), untested]
    exact and_iff_right kind
  -- First the reports of the other sort go, then the criteria are told apart by their identifiers.
  rw [both, ← List.filter_filter, filter_uncovered checked, filter_uncoveredCriteria found]
  exact if_congr reported rfl rfl

/-- A spec with two criteria and a component. -/
def loaderSpec : Document :=
  Document.read ["IMPLEMENTS:"] "x.md"
    "- X-1_AC-1 Reads\n- X-1_AC-2 Fails\n### X-Loader\nIMPLEMENTS: X-1_AC-1"

/-- The component is there, and one of the criteria is tested. -/
def loaderMarkers : List Marker :=
  [⟨.component, "X-Loader", "x.py", 1, 18, 26⟩, ⟨.test, "X-1_AC-2", "x.py", 2, 13, 21⟩]

end Consistency

end Traceability
