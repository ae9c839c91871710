import Traceability.Command.Readers
import Traceability.Proofs.Consistency
import Traceability.Proofs.Pattern.IdForm
import Traceability.Proofs.Trace.Resolve

/-!
# Markers in traces

A marker that a check accepts is in the trace of its identifier, but for two: code and tests of a
requirement stand with the criteria of the requirement, and the code of a property is nowhere.
-/
namespace Traceability

open Spec

namespace TraceIndex

variable {i : TraceIndex} {o : TraceOptions} {q id : Text} {k : NodeKind} {l : Location}
  {v : TracePoint}

theorem Backward.ne_place (shaped : i.Shaped) (back : i.Backward o q v) : v ≠ .place k id l := by
  by_cases kind : Identifier.kind q = .criterion
  · obtain ⟨_, r, _, rfl⟩ := (backward_criterion_iff shaped kind).mp back
    exact nofun
  · obtain ⟨_, ⟨a, _, rfl⟩ | ⟨_, r, _, rfl⟩⟩ := (backward_iff shaped kind).mp back
    · exact nofun
    · exact nofun

/-- Places are reached onward only. -/
theorem reached_place_iff (shaped : i.Shaped) :
    i.Reached o q (.place k id l) ↔ i.Onward o q (.place k id l) := by
  constructor
  · rintro (start | onward | back)
    · cases start
    · exact onward
    · exact absurd rfl (back.ne_place shaped)
  · exact fun onward => .inr (.inl onward)

/-- What is reached in a part for code or tests is a place. -/
theorem Reached.place_of_part (shaped : i.Shaped) (reached : i.Reached o q v)
    (part : v.part = .implementation ∨ v.part = .test) {n : TraceNode} (node : i.node? v = some n) :
    i.Reached o q (.place n.kind n.id n.location) := by
  cases v with
  | spec kind id =>
    have spec : ∃ known : IdKind, kind = known.nodeKind := by
      rcases reached.fits shaped with fits | ⟨a, _, same⟩
      · exact ⟨_, fits⟩
      · cases same
        exact ⟨.criterion, rfl⟩
    obtain ⟨known, rfl⟩ := spec
    cases known <;> rcases part with part | part <;> cases part
  | place kind id l =>
    cases node
    exact reached

/-- The places of the traced identifier itself are next to it. -/
theorem reached_own_place_iff (shaped : i.Shaped) :
    i.Reached {} q (.place k q l) ↔ Forward i (.ofId q) (.place k q l) := by
  rw [reached_place_iff shaped]
  constructor
  · rintro ⟨_, w, edge, n, walk, _⟩
    obtain ⟨u, before, last⟩ := (Walk.go edge walk).last
    have start : u = .ofId q := by
      have fits := fits_of_walk shaped before rfl
      cases last <;> exact congrArg (TracePoint.spec · q) fits
    exact start ▸ last
  · intro edge
    exact ⟨rfl, _, edge, 0, .stay _, rfl⟩

end TraceIndex

namespace TraceChain

open TraceIndex

variable {i : TraceIndex} {o : TraceOptions} {q : Text} {n : TraceNode}

theorem mem_implementations_or_tests_iff (shaped : i.Shaped) {direction : Direction}
    {depth : Option Int} : n ∈ (resolve i { direction, depth } q).implementations ++
        (resolve i { direction, depth } q).tests ↔
      i.Reached { direction, depth } q (.place n.kind n.id n.location) := by
  have parts (k : NodeKind) : n ∈ (resolve i { direction, depth } q).part k ↔
      ∃ v, i.Reached { direction, depth } q v ∧ v.part = k ∧ i.node? v = some n := by
    rw [resolve_eq, mem_part_restrict_iff fun _ => kind_of_mem_gathered shaped]
    exact shows_gathered shaped k n
  change n ∈ part _ .implementation ++ part _ .test ↔ _
  rw [List.mem_append, parts, parts]
  constructor
  · rintro (⟨v, reached, own, node⟩ | ⟨v, reached, own, node⟩)
    · exact reached.place_of_part shaped (.inl own) node
    · exact reached.place_of_part shaped (.inr own) node
  · intro reached
    exact (TracePoint.part_place n.kind n.id n.location).imp
      (fun own => ⟨_, reached, own, rfl⟩) fun own => ⟨_, reached, own, rfl⟩

end TraceChain

namespace Consistency

variable {c : Catalogue} {markers : List Marker} {m : Marker} {findings : List Finding}

/-- A marker about which nothing is reported passes its own check. -/
theorem checkMarker_eq_nil [CharacterNames] {idPattern : Text}
    (checked : checkCode idPattern c markers = .ok findings)
    (member : m ∈ markers) (accepted : ∀ f ∈ reportsOf m, f ∉ findings) :
    checkMarker c (PatternNode.use {} idPattern) m = .ok [] := by
  obtain ⟨own, here, among⟩ := exists_checkMarker checked member
  have silent : own = [] := by
    rw [List.eq_nil_iff_forall_not_mem]
    exact fun f inside => accepted f (mem_reportsOf here f inside) (among f inside)
  rw [here, silent]

theorem matchesAll_of_checkMarker {form : PatternNode} (checked : checkMarker c (.ok form) m = .ok [])
    (kind : m.kind ≠ .component) : form.matchesAll m.id = true := by
  unfold checkMarker at checked
  split at checked
  · next component => exact absurd component kind
  · by_contra other
    have silent := Except.ok.inj checked
    rw [if_neg other] at silent
    cases silent

/-- The identifier of a marker that passes its check is not that of a component, unless the marker says
so. -/
theorem kind_of_checkMarker {documents : List Document} (parsed : ∀ d ∈ documents, d.Parsed)
    (checked : checkMarker (.ofDocuments documents) (.ok PatternNode.idForm) m = .ok []) :
    Identifier.kind m.id = .component ↔ m.kind = .component := by
  have defined := defines_of_checkMarker checked (List.forall_mem_nil _)
  constructor
  · intro component
    by_contra kind
    rw [if_neg kind] at defined
    obtain ⟨d, found, same⟩ := Catalogue.definesAs_iff.mp
      ((Catalogue.definesAs_iff_kind parsed).mpr ⟨defined, component⟩)
    obtain ⟨⟨document, member, inside⟩, known⟩ := Catalogue.mem_of_get?_ofDocuments found
    obtain ⟨_, _, read⟩ : Declaration.Lexical .component m.id :=
      known ▸ same ▸ (parsed document member).lexical inside
    have matched := matchesAll_of_checkMarker checked kind
    rw [PatternNode.not_matchesAll_component read] at matched
    cases matched
  · intro kind
    rw [if_pos kind] at defined
    exact ((Catalogue.definesAs_iff_kind parsed).mp defined).2

end Consistency

/-- Whether no trace shows a marker: one of code or tests of a requirement, or of code of a property. -/
def Marker.Untraced (m : Marker) : Prop :=
  (Identifier.kind m.id = .requirement ∧ m.kind ≠ .component) ∨
    Identifier.kind m.id = .property ∧ m.kind = .implementation

def MarkerKind.nodeKind : MarkerKind → NodeKind
  | .implementation => .implementation
  | .test => .test
  | .component => .component

def Marker.node (m : Marker) : TraceNode := ⟨m.id, m.kind.nodeKind, m.location⟩

namespace TraceIndex

variable {documents : List Document} {markers : List Marker} {m : Marker} {id : Text}

theorem namesProperty_of_kind (property : Identifier.kind id = .property) :
    namesProperty id = true := by
  unfold Identifier.kind at property
  split at property
  · cases property
  · split at property
    · next marked => exact marked
    · split at property <;> cases property

theorem not_namesProperty_of_kind (parsed : ∀ d ∈ documents, d.Parsed)
    (defined : (Catalogue.ofDocuments documents).defines id = true)
    (criterion : Identifier.kind id = .criterion) : namesProperty id = false := by
  obtain ⟨d, found, same⟩ := Catalogue.definesAs_iff.mp
    ((Catalogue.definesAs_iff_kind parsed).mpr ⟨defined, criterion⟩)
  obtain ⟨⟨document, member, inside⟩, rfl⟩ := Catalogue.mem_of_get?_ofDocuments found
  obtain ⟨_, _, read⟩ := (parsed document member).criterion inside same
  exact Identifier.not_includes_propertyMark read

/-- A marker is next to what it names where markers of its kind belong to identifiers of that kind. -/
theorem forward_marker_iff (parsed : ∀ d ∈ documents, d.Parsed) (member : m ∈ markers)
    (defined : (Catalogue.ofDocuments documents).defines m.id = true)
    (components : Identifier.kind m.id = .component ↔ m.kind = .component) :
    Forward (build (.ofDocuments documents) markers) (.ofId m.id)
      (.place m.kind.nodeKind m.id m.location) ↔ ¬ m.Untraced := by
  cases known : Identifier.kind m.id with
  | requirement =>
    have other : m.kind ≠ .component := fun kind => by cases known.symm.trans (components.mpr kind)
    refine iff_of_false ?_ (not_not_intro (.inl ⟨known, other⟩))
    rw [TracePoint.ofId_eq known]
    intro edge
    obtain ⟨a, _, never⟩ := forward_requirement_iff.mp edge
    cases never
  | criterion =>
    have traced : ¬ m.Untraced := by simp [Marker.Untraced, known]
    rw [TracePoint.ofId_eq known]
    refine iff_of_true (forward_criterion_iff.mpr ?_) traced
    cases kind : m.kind with
    | implementation => exact .inr (.inl ⟨_, mem_codeOf.mpr ⟨m, member, kind, rfl, rfl⟩, rfl⟩)
    | test =>
      have unmarked := not_namesProperty_of_kind parsed defined known
      exact .inr (.inr ⟨_, mem_testsOf.mpr ⟨m, member, kind, unmarked, rfl, rfl⟩, rfl⟩)
    | component => cases known.symm.trans (components.mpr kind)
  | property =>
    rw [TracePoint.ofId_eq known]
    cases kind : m.kind with
    | implementation =>
      refine iff_of_false ?_ (not_not_intro (.inr ⟨known, kind⟩))
      intro edge
      obtain ⟨l, _, never⟩ := forward_property_iff.mp edge
      cases never
    | test =>
      have traced : ¬ m.Untraced := by simp [Marker.Untraced, known, kind]
      have marked := namesProperty_of_kind known
      refine iff_of_true (forward_property_iff.mpr ?_) traced
      exact ⟨_, mem_propertyTestsOf.mpr ⟨m, member, kind, marked, rfl, rfl⟩, rfl⟩
    | component => cases known.symm.trans (components.mpr kind)
  | component =>
    have kind := components.mp known
    have traced : ¬ m.Untraced := by simp [Marker.Untraced, known]
    rw [TracePoint.ofId_eq known, kind]
    refine iff_of_true (forward_component_iff.mpr ?_) traced
    exact ⟨_, mem_componentCodeOf.mpr ⟨m, member, kind, rfl, rfl⟩, rfl⟩

end TraceIndex

/-- Where no other form is configured, a check does not fail, and a marker about which it reports
nothing is in the trace of its identifier, unless it marks code or tests of a requirement or code of a
property; then it is not. -/
theorem Consistency.traced_iff [CharacterNames] {documents : List Document}
    (parsed : ∀ d ∈ documents, d.Parsed) (markers : List Marker) :
    let c := Catalogue.ofDocuments documents
    ∃ findings, checkCode ({} : Config).idPattern c markers = .ok findings ∧
      ∀ m ∈ markers, (∀ f ∈ reportsOf m, f ∉ findings) →
        let t := TraceChain.resolve (TraceIndex.build c markers) {} m.id
        (m.node ∈ t.implementations ++ t.tests ↔ ¬ m.Untraced) := by
  intro c
  cases checked : checkCode ({} : Config).idPattern c markers with
  | error e =>
    obtain ⟨unusable, _⟩ := checkCode_eq_error checked
    rw [PatternNode.use_idPattern] at unusable
    cases unusable
  | ok findings =>
    refine ⟨findings, rfl, fun m member accepted => ?_⟩
    have shaped := TraceIndex.shaped_build parsed markers
    have passed := checkMarker_eq_nil checked member accepted
    rw [PatternNode.use_idPattern] at passed
    have components := kind_of_checkMarker parsed passed
    have defined := defines_id_of_checkMarker passed (List.forall_mem_nil _)
    change m.node ∈ _ ↔ _
    rw [← TraceIndex.forward_marker_iff parsed member defined components,
      ← TraceIndex.reached_own_place_iff shaped]
    exact TraceChain.mem_implementations_or_tests_iff shaped

/-- The code of a requirement is accepted, and no trace shows it. -/
theorem Consistency.untraced_requirement :
    let c := Catalogue.ofDocuments [Document.read [] "x.md" "### X-1: T\n"]
    let m : Marker := ⟨.implementation, "X-1", "x.py", 1, 14, 17⟩
    let t := TraceChain.resolve (TraceIndex.build c [m]) {} "X-1"
    checkCode ({} : Config).idPattern c [m] = .ok [] ∧ t.implementations = [] ∧ t.tests = [] := by
  decide +kernel

/-- A criterion, a property and a component. -/
def kindsSpec : Document :=
  Document.read [] "x.md" "- X-1_AC-1 Reads\n- X_P-1 Stable\n### X-Loader\n"

def kindsMarkers : List Marker :=
  [⟨.implementation, "X-1_AC-1", "x.py", 1, 14, 22⟩, ⟨.test, "X-1_AC-1", "x.py", 2, 13, 21⟩,
    ⟨.test, "X_P-1", "x.py", 3, 13, 18⟩, ⟨.component, "X-Loader", "x.py", 4, 18, 26⟩,
    ⟨.implementation, "X_P-1", "x.py", 5, 13, 18⟩]

theorem Consistency.traced_iff_kinds :
    let c := Catalogue.ofDocuments [kindsSpec]
    (∀ d ∈ [kindsSpec], d.Parsed) ∧
      checkCode ({} : Config).idPattern c kindsMarkers = .ok [] ∧
      ∃ findings, checkCode ({} : Config).idPattern c kindsMarkers = .ok findings ∧
        ∀ m ∈ kindsMarkers, (∀ f ∈ reportsOf m, f ∉ findings) →
          let t := TraceChain.resolve (TraceIndex.build c kindsMarkers) {} m.id
          (m.node ∈ t.implementations ++ t.tests ↔ ¬ m.Untraced) := by
  intro c
  have parsed : ∀ d ∈ [kindsSpec], d.Parsed := List.forall_mem_singleton.mpr (Document.parsed_read _ _ _)
  exact ⟨parsed, by decide +kernel, traced_iff parsed kindsMarkers⟩

end Traceability
