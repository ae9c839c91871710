import Mathlib.Data.List.ProdSigma
import Traceability.Proofs.Cut
import Traceability.Proofs.Marker.Origin
import Traceability.Proofs.Trace.Index

/-!
# What is linked, and in which order

The index answers both ways alike: a criterion is one of a requirement when the requirement is what it
belongs to, and a component implements a criterion when the criterion is one that the component
implements. Every marker is listed in one place, which its kind tells. Nothing is listed without a
document or a marker that says so, and no list repeats anything or changes the order of arrival.
-/
namespace Traceability

namespace Identifier

theorem parentRequirement?_eq_some_iff {id r : Text} :
    parentRequirement? id = some r ↔ r ≠ [] ∧ Text.StandsBefore criterionMark id r := by
  rw [← Text.map_fst_cut?_eq_some_iff, parentRequirement?]
  cases Text.cut? criterionMark id with
  | none => simp
  | some parts =>
    obtain ⟨parent, rest⟩ := parts
    by_cases empty : parent = []
    · subst empty
      simp [eq_comm]
    · simp only [empty, if_false, Option.some.injEq, Option.map_some]
      constructor
      · rintro rfl
        exact ⟨empty, rfl⟩
      · exact And.right

end Identifier

open Spec

namespace TraceIndex

/-- Where an index lists the location of a marker. -/
inductive Shelf where
  | code
  | tests
  | propertyTests
  | componentCode
deriving DecidableEq

def Shelf.of (m : Marker) : Shelf :=
  match m.kind with
  | .implementation => .code
  | .test => if namesProperty m.id then .propertyTests else .tests
  | .component => .componentCode

def shelf (i : TraceIndex) : Shelf → OrderedMultimap Text Location
  | .code => i.codeOf
  | .tests => i.testsOf
  | .propertyTests => i.propertyTestsOf
  | .componentCode => i.componentCodeOf

/-- Whether some document has something refer to a target. -/
def Refers (documents : List Document) (kind : CrossRefKind) (owner target : Text) : Prop :=
  ∃ d ∈ documents, ∃ r ∈ d.crossRefs, r.owner = some owner ∧ r.kind = kind ∧ target ∈ r.targets

/-- Whether an index links what documents and markers link, and that both ways. -/
structure Traces (documents : List Document) (markers : List Marker) (i : TraceIndex) : Prop where
  criteria : ∀ r a, a ∈ i.criteriaOf.get r ↔ i.requirementOf.get? a = some r
  requirement : ∀ r a, i.requirementOf.get? a = some r ↔
    a ∈ (Catalogue.ofDocuments documents).idsOf .criterion ∧
      r ∈ (Catalogue.ofDocuments documents).idsOf .requirement ∧
        Text.StandsBefore Identifier.criterionMark a r
  components : ∀ o a, o ∈ i.componentsOf.get a ↔ a ∈ i.implementedBy.get o
  implemented : ∀ o a, a ∈ i.implementedBy.get o ↔ Refers documents .implements o a
  validated : ∀ o a, a ∈ i.validatedBy.get o ↔ Refers documents .validates o a
  shelved : ∀ s id l, l ∈ (i.shelf s).get id ↔
    ∃ m ∈ markers, Shelf.of m = s ∧ m.id = id ∧ m.location = l

/-- Whether every list of an index is what arrived for its key, each item once and where it was seen
first. -/
structure Orderly (documents : List Document) (markers : List Marker) (i : TraceIndex) : Prop where
  criteria : ∀ r, FirstSeen
    (((documents.flatMap (·.definitions)).map (·.id)).filter fun a => i.requirementOf.get? a = some r)
    (i.criteriaOf.get r)
  components : ∀ a, FirstSeen
    (((referenceLinks (.ofDocuments documents) .implements).filter (·.2 = a)).map (·.1))
    (i.componentsOf.get a)
  implemented : ∀ o, FirstSeen
    (((referenceLinks (.ofDocuments documents) .implements).filter (·.1 = o)).map (·.2))
    (i.implementedBy.get o)
  validated : ∀ o, FirstSeen
    (((referenceLinks (.ofDocuments documents) .validates).filter (·.1 = o)).map (·.2))
    (i.validatedBy.get o)
  shelved : ∀ s id, FirstSeen
    ((markers.filter fun m => Shelf.of m = s ∧ m.id = id).map (·.location)) ((i.shelf s).get id)

variable {documents : List Document} {markers : List Marker} {c : Catalogue} {id a r : Text}

/-! ## Requirements -/

theorem requirementFor?_eq_some_iff (parsed : ∀ d ∈ documents, d.Parsed) :
    requirementFor? (.ofDocuments documents) a = some r ↔
      r ∈ (Catalogue.ofDocuments documents).idsOf .requirement ∧
        Text.StandsBefore Identifier.criterionMark a r := by
  rw [requirementFor?, Option.filter_eq_some_iff, Identifier.parentRequirement?_eq_some_iff,
    ← Catalogue.mem_idsOf_iff]
  have named (defined : r ∈ (Catalogue.ofDocuments documents).idsOf .requirement) : r ≠ [] := by
    rintro rfl
    have empty : Identifier.kind [] ≠ .requirement := by decide
    exact empty ((Catalogue.mem_idsOf_iff_kind parsed).mp defined).2
  constructor
  · rintro ⟨⟨_, first⟩, defined⟩
    exact ⟨defined, first⟩
  · rintro ⟨defined, first⟩
    exact ⟨⟨named defined, first⟩, defined⟩

theorem mem_criteriaOf : a ∈ (build c markers).criteriaOf.get r ↔
    a ∈ c.idsOf .criterion ∧ requirementFor? c a = some r :=
  OrderedMultimap.mem_get_ofList.trans mem_requirementLinks

theorem get?_requirementOf : (build c markers).requirementOf.get? a = some r ↔
    a ∈ c.idsOf .criterion ∧ requirementFor? c a = some r := by
  have linked {a r : Text} : (a, r) ∈ (requirementLinks c).map Prod.swap ↔
      a ∈ c.idsOf .criterion ∧ requirementFor? c a = some r := by
    rw [List.mem_map_swap, mem_requirementLinks]
  refine (OrderedMap.get?_ofList_iff_mem fun a r r' member member' => ?_).trans linked
  have parent := (linked.mp member).2
  rw [(linked.mp member').2] at parent
  exact (Option.some.inj parent).symm

/-- The criteria of a requirement are linked in the order of the definitions. -/
theorem filter_requirementLinks : ((requirementLinks c).filter (·.1 = r)).map (·.2) =
    (c.idsOf .criterion).filter fun a => requirementFor? c a = some r := by
  rw [requirementLinks]
  induction c.idsOf .criterion with
  | nil => rfl
  | cons a rest ih =>
    cases parent : requirementFor? c a with
    | none => simpa [List.filterMap_cons, parent] using ih
    | some r' =>
      by_cases same : r' = r
      · simpa [List.filterMap_cons, parent, same] using ih
      · simpa [List.filterMap_cons, parent, same] using ih

theorem firstSeen_criteriaOf (documents : List Document) (markers : List Marker) (r : Text) :
    FirstSeen (((documents.flatMap (·.definitions)).map (·.id)).filter fun a =>
        (build (.ofDocuments documents) markers).requirementOf.get? a = some r)
      ((build (.ofDocuments documents) markers).criteriaOf.get r) := by
  have kept : (Catalogue.ofDocuments documents).ids.filter (fun a =>
        (build (.ofDocuments documents) markers).requirementOf.get? a = some r) =
      ((requirementLinks (.ofDocuments documents)).filter (·.1 = r)).map (·.2) := by
    rw [filter_requirementLinks, Catalogue.idsOf_eq_filter, List.filter_filter]
    refine List.filter_congr fun a _ => ?_
    rw [Bool.eq_iff_iff, decide_eq_true_iff, get?_requirementOf, Catalogue.mem_idsOf_iff,
      Bool.and_eq_true, decide_eq_true_iff, and_comm]
  refine (Catalogue.firstSeen_ids.filter _).trans ?_
  rw [kept]
  exact OrderedMultimap.firstSeen_get_ofList _ r

/-! ## References -/

/-- Links that are turned around arrive in the order of the links. -/
theorem firstSeen_get_ofList_swap (links : List (Text × Text)) (a : Text) :
    FirstSeen ((links.filter (·.2 = a)).map (·.1))
      ((OrderedMultimap.ofList (links.map Prod.swap)).get a) := by
  have seen := OrderedMultimap.firstSeen_get_ofList (links.map Prod.swap) a
  rwa [List.filter_map, List.map_map] at seen

/-! ## Shelves -/

namespace Shelf

/-- Which markers a shelf lists. -/
def takes (s : Shelf) (m : Marker) : Bool :=
  match s with
  | .code => m.kind = .implementation
  | .tests => m.kind = .test && !namesProperty m.id
  | .propertyTests => m.kind = .test && namesProperty m.id
  | .componentCode => m.kind = .component

theorem takes_eq (s : Shelf) (m : Marker) : s.takes m = decide (Shelf.of m = s) := by
  unfold takes Shelf.of
  cases m.kind with
  | implementation => cases s <;> rfl
  | test => cases namesProperty m.id <;> cases s <;> rfl
  | component => cases s <;> rfl

end Shelf

theorem shelf_build (c : Catalogue) (markers : List Marker) (s : Shelf) :
    (build c markers).shelf s = .ofList (markerLinks (fun m => Shelf.of m = s) markers) := by
  rw [← funext s.takes_eq]
  cases s <;> rfl

theorem mem_shelf {s : Shelf} {l : Location} : l ∈ ((build c markers).shelf s).get id ↔
    ∃ m ∈ markers, Shelf.of m = s ∧ m.id = id ∧ m.location = l := by
  rw [shelf_build, OrderedMultimap.mem_get_ofList, mem_markerLinks]
  simp only [decide_eq_true_eq]

theorem firstSeen_shelf (s : Shelf) (id : Text) :
    FirstSeen ((markers.filter fun m => Shelf.of m = s ∧ m.id = id).map (·.location))
      (((build c markers).shelf s).get id) := by
  have seen := OrderedMultimap.firstSeen_get_ofList
    (markerLinks (fun m => Shelf.of m = s) markers) id
  rw [markerLinks, List.filter_map, List.map_map, List.filter_filter] at seen
  rw [shelf_build]
  refine (congrArg (FirstSeen · _) (congrArg (List.map _) ?_)).mp seen
  refine List.filter_congr fun m _ => ?_
  rw [Function.comp, Bool.decide_and, Bool.and_comm]

/-- In files that are scanned with the same tokens, a marker is listed on one shelf only. -/
theorem mem_shelf_iff {tokens paths : List Text} {content : Text → Text}
    (scanned : markers =
      (MarkerScan.merge (paths.map fun p => Marker.scan tokens p (content p))).markers)
    {m : Marker} (member : m ∈ markers) (s : Shelf) :
    m.location ∈ ((build c markers).shelf s).get m.id ↔ s = Shelf.of m := by
  rw [mem_shelf]
  constructor
  · rintro ⟨m', member', shelved, same, place⟩
    rw [scanned] at member member'
    have kinds := Marker.kind_eq_of_mem_merge member member' place.symm
    rw [← shelved, Shelf.of, Shelf.of, kinds, same]
  · rintro rfl
    exact ⟨m, member, rfl, rfl, rfl⟩

/-! ## The index -/

theorem traces_build (parsed : ∀ d ∈ documents, d.Parsed) (markers : List Marker) :
    (build (.ofDocuments documents) markers).Traces documents markers where
  criteria r a := mem_criteriaOf.trans get?_requirementOf.symm
  requirement r a := get?_requirementOf.trans (and_congr_right' (requirementFor?_eq_some_iff parsed))
  components o a := by
    refine OrderedMultimap.mem_get_ofList.trans (Iff.trans ?_ OrderedMultimap.mem_get_ofList.symm)
    exact List.mem_map_swap _ _ _
  implemented o a := OrderedMultimap.mem_get_ofList.trans mem_referenceLinks
  validated o a := OrderedMultimap.mem_get_ofList.trans mem_referenceLinks
  shelved s id l := mem_shelf

theorem orderly_build (documents : List Document) (markers : List Marker) :
    (build (.ofDocuments documents) markers).Orderly documents markers where
  criteria := firstSeen_criteriaOf documents markers
  components := firstSeen_get_ofList_swap _
  implemented := OrderedMultimap.firstSeen_get_ofList _
  validated := OrderedMultimap.firstSeen_get_ofList _
  shelved := firstSeen_shelf

/-- The index links both ways what documents and markers link, lists every scanned marker in one place,
and keeps the order of arrival. -/
theorem build_conserves (parsed : ∀ d ∈ documents, d.Parsed) (markers : List Marker) :
    let i := build (.ofDocuments documents) markers
    i.Traces documents markers ∧ i.Orderly documents markers ∧
      ∀ (tokens paths : List Text) (content : Text → Text),
        markers = (MarkerScan.merge (paths.map fun p => Marker.scan tokens p (content p))).markers →
          ∀ m ∈ markers, ∀ s, m.location ∈ (i.shelf s).get m.id ↔ s = Shelf.of m :=
  ⟨traces_build parsed markers, orderly_build documents markers,
    fun _ _ _ scanned _ member s => mem_shelf_iff scanned member s⟩

/-- Two documents that define one requirement and refer to its criterion. -/
def linkedSpecs : List Document :=
  [.read ["IMPLEMENTS:", "VALIDATES:"] "a.md"
      "### X-1: Reading\n- X-1_AC-1 Reads\n- X_P-1 Holds\nVALIDATES: X-1_AC-1",
    .read ["IMPLEMENTS:", "VALIDATES:"] "b.md" "### X-Loader\nIMPLEMENTS: X-1_AC-1\n### X-1: Loading"]

def linkedMarkers : List Marker :=
  (MarkerScan.merge ((["a.py", "b.py"] : List Text).map fun p => Marker.scan Marker.defaultTokens p
    (if p = "a.py" then "# @spec-impl: X-1_AC-1" else "# @spec-test: X_P-1"))).markers

theorem build_conserves_linked : (∀ d ∈ linkedSpecs, d.Parsed) ∧
    let i := build (.ofDocuments linkedSpecs) linkedMarkers
    i.requirementOf.get? "X-1_AC-1" = some "X-1" ∧
      ("X-Loader" : Text) ∈ i.componentsOf.get "X-1_AC-1" ∧
        ∀ s, ⟨"b.py", 1⟩ ∈ (i.shelf s).get "X_P-1" ↔ s = .propertyTests := by
  have parsed : ∀ d ∈ linkedSpecs, d.Parsed := by
    simp only [linkedSpecs, List.forall_mem_cons, Document.parsed_read, true_and]
    exact List.forall_mem_nil _
  obtain ⟨traces, _, sole⟩ := build_conserves parsed linkedMarkers
  refine ⟨parsed, (traces.criteria _ _).mp (by decide +kernel),
    (traces.components _ _).mpr (by decide +kernel), ?_⟩
  exact sole _ _ _ rfl ⟨.test, "X_P-1", "b.py", 1, 14, 19⟩ (by decide +kernel)

end TraceIndex

end Traceability
