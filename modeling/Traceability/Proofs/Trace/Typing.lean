import Traceability.Proofs.Trace.Resolve

/-!
# Kinds in a trace

Every part of a trace holds defined identifiers of its own kind, except that a component or a property
comes with all that its references name, be it a criterion or not.
-/
namespace Traceability.TraceChain

open Spec TraceIndex

/-- Whether a reference of an owner names something that is no criterion. -/
def Strays (c : Catalogue) (kind : CrossRefKind) (owner target : Text) : Prop :=
  (owner, target) ∈ referenceLinks c kind ∧ Identifier.kind target ≠ .criterion

variable {documents : List Document} {c : Catalogue} {markers : List Marker} {o : TraceOptions}
  {q a : Text} {n : TraceNode}

theorem strays_of_mem_linked (member : a ∈ (build c markers).linked q)
    (other : Identifier.kind a ≠ .criterion) : ∃ kind, Strays c kind q a := by
  unfold linked at member
  split at member
  · exact ⟨.implements, OrderedMultimap.mem_get_ofList.mp member, other⟩
  · exact ⟨.validates, OrderedMultimap.mem_get_ofList.mp member, other⟩
  · cases member

/-- A node of a part for identifiers stands for a defined identifier, of the kind of the part or there
for a link only. -/
theorem defines_of_mem_resolve (parsed : ∀ d ∈ documents, d.Parsed) (kind : IdKind)
    (member : n ∈ (resolve (build (.ofDocuments documents) markers) o q).part kind.nodeKind) :
    (Catalogue.ofDocuments documents).defines n.id = true ∧ (Identifier.kind n.id = kind ∨
      kind = .criterion ∧ n.id ∈ (build (.ofDocuments documents) markers).linked q) := by
  have shaped := shaped_build parsed markers
  obtain ⟨v, reached, same, node⟩ :=
    (shows_gathered shaped kind.nodeKind n).mp (mem_part_of_restrict member)
  obtain ⟨id, rfl⟩ := TracePoint.eq_spec_of_part same
  obtain ⟨l, located, rfl⟩ := Option.map_eq_some_iff.mp node
  refine ⟨located_iff.mp ⟨l, located⟩, ?_⟩
  rcases reached.fits shaped with fits | ⟨a, linked, same⟩
  · exact .inl (IdKind.nodeKind_injective fits).symm
  · obtain ⟨part, rfl⟩ := TracePoint.spec.inj same
    exact .inr ⟨IdKind.nodeKind_injective part, linked⟩

theorem mem_idsOf_of_mem_resolve (parsed : ∀ d ∈ documents, d.Parsed) (kind : IdKind)
    (other : kind ≠ .criterion)
    (member : n ∈ (resolve (build (.ofDocuments documents) markers) o q).part kind.nodeKind) :
    n.id ∈ (Catalogue.ofDocuments documents).idsOf kind := by
  obtain ⟨defined, known | ⟨criterion, _⟩⟩ := defines_of_mem_resolve parsed kind member
  · exact (Catalogue.mem_idsOf_iff_kind parsed).mpr ⟨defined, known⟩
  · exact absurd criterion other

/-- What a trace takes for a criterion is a defined one, unless a reference strays. -/
theorem mem_idsOf_of_mem_criteria (parsed : ∀ d ∈ documents, d.Parsed)
    (member : n ∈ (resolve (build (.ofDocuments documents) markers) o q).criteria) :
    n.id ∈ (Catalogue.ofDocuments documents).idsOf .criterion ∨
      ∃ kind, Strays (.ofDocuments documents) kind q n.id := by
  rw [Catalogue.mem_idsOf_iff_kind parsed]
  obtain ⟨defined, reason⟩ := defines_of_mem_resolve parsed .criterion member
  by_cases known : Identifier.kind n.id = .criterion
  · exact .inl ⟨defined, known⟩
  · obtain ⟨_, linked⟩ := reason.resolve_left known
    exact .inr (strays_of_mem_linked linked known)

theorem kind_or_strays {kind : CrossRefKind} {owner target : Text}
    (linked : (owner, target) ∈ referenceLinks c kind) :
    Identifier.kind target = .criterion ∨ Strays c kind owner target :=
  (Classical.em _).imp_right fun other => ⟨linked, other⟩

/-- The parts of a trace hold defined identifiers of their kind, and the links among components and
criteria have criteria at the one end, both as far as no reference strays. -/
theorem typed_resolve (parsed : ∀ d ∈ documents, d.Parsed) (markers : List Marker)
    (o : TraceOptions) (q : Text) :
    let c := Catalogue.ofDocuments documents
    let i := build c markers
    let t := resolve i o q
    (∀ n, t.requirement = some n → n.id ∈ c.idsOf .requirement) ∧
      (∀ n ∈ t.criteria, n.id ∈ c.idsOf .criterion ∨ ∃ kind, Strays c kind q n.id) ∧
      (∀ n ∈ t.components, n.id ∈ c.idsOf .component) ∧
      (∀ n ∈ t.properties, n.id ∈ c.idsOf .property) ∧
      (∀ a ∈ i.componentsOf.keys, Identifier.kind a = .criterion ∨
        ∃ owner, Strays c .implements owner a) ∧
      ∀ owner, ∀ a ∈ i.implementedBy.get owner, Identifier.kind a = .criterion ∨
        Strays c .implements owner a := by
  intro c i t
  refine ⟨fun n kept => ?_, fun n => mem_idsOf_of_mem_criteria parsed, fun n member => ?_,
    fun n member => ?_, fun a key => ?_, fun owner a member => ?_⟩
  · exact mem_idsOf_of_mem_resolve parsed .requirement nofun (Option.mem_toList.mpr kept)
  · exact mem_idsOf_of_mem_resolve parsed .component nofun member
  · exact mem_idsOf_of_mem_resolve parsed .property nofun member
  · obtain ⟨owner, swapped⟩ := OrderedMultimap.mem_keys_ofList.mp key
    obtain ⟨⟨_, _⟩, linked, same⟩ := List.mem_map.mp swapped
    cases same
    exact (kind_or_strays linked).imp_right fun strays => ⟨_, strays⟩
  · exact kind_or_strays (OrderedMultimap.mem_get_ofList.mp member)

theorem typed_resolve_loader :
    let c := Catalogue.ofDocuments [readingSpec]
    let i := build c []
    let t := resolve i {} "X-Loader"
    (∀ d ∈ [readingSpec], d.Parsed) ∧
      t.criteria = [⟨"X-1_AC-1", .criterion, ⟨"x.md", 2⟩⟩] ∧
      (∀ n, t.requirement = some n → n.id ∈ c.idsOf .requirement) ∧
      (∀ n ∈ t.criteria, n.id ∈ c.idsOf .criterion ∨ ∃ kind, Strays c kind "X-Loader" n.id) ∧
      (∀ n ∈ t.components, n.id ∈ c.idsOf .component) ∧
      (∀ n ∈ t.properties, n.id ∈ c.idsOf .property) ∧
      (∀ a ∈ i.componentsOf.keys, Identifier.kind a = .criterion ∨
        ∃ owner, Strays c .implements owner a) ∧
      ∀ owner, ∀ a ∈ i.implementedBy.get owner, Identifier.kind a = .criterion ∨
        Strays c .implements owner a := by
  intro c i t
  have parsed : ∀ d ∈ [readingSpec], d.Parsed := List.forall_mem_singleton.mpr (Document.parsed_read _ _ _)
  exact ⟨parsed, by decide +kernel, typed_resolve parsed [] {} "X-Loader"⟩

/-- A component that says to implement a requirement. -/
def strayingSpec : Document :=
  Document.read ["IMPLEMENTS:"] "x.md" "### X-1: T\n### X-Loader\nIMPLEMENTS: X-1\n"

/-- The requirement that a component says to implement is a criterion in the trace of the component,
and its components are listed like those of a criterion. -/
theorem strays_resolve :
    let c := Catalogue.ofDocuments [strayingSpec]
    let i := build c []
    strayingSpec.Parsed ∧ ("X-Loader" : Text) ∈ i.ids ∧
      (resolve i {} "X-Loader").criteria = [⟨"X-1", .criterion, ⟨"x.md", 1⟩⟩] ∧
      ("X-1" : Text) ∉ c.idsOf .criterion ∧
      i.componentsOf.keys = ["X-1"] ∧ i.implementedBy.get "X-Loader" = ["X-1"] ∧
      Identifier.kind "X-1" = .requirement :=
  ⟨⟨_, _, _, rfl⟩, by decide +kernel⟩

end Traceability.TraceChain
