import Traceability.Proofs.Trace.Chain
import Traceability.Proofs.Trace.Index

/-!
# What a trace reaches

The links of an index are the edges of a graph. A trace of an identifier consists of the nodes at a
bounded distance from it: those along the forward edges alone, and those along the reverse edges alone,
of whose requirements only the first is kept.
-/
namespace Traceability

/-- A path of a number of edges. -/
inductive Walk {α : Type} (edge : α → α → Prop) : Nat → α → α → Prop
  | stay (a : α) : Walk edge 0 a a
  | go {a b c : α} {n : Nat} : edge a b → Walk edge n b c → Walk edge (n + 1) a c

theorem Walk.last {α : Type} {edge : α → α → Prop} {n : Nat} {a c : α}
    (walk : Walk edge (n + 1) a c) : ∃ b, Walk edge n a b ∧ edge b c := by
  induction n generalizing a with
  | zero =>
    obtain _ | ⟨first, rest⟩ := walk
    cases rest
    exact ⟨a, .stay a, first⟩
  | succ n ih =>
    obtain _ | ⟨first, rest⟩ := walk
    obtain ⟨b, before, last⟩ := ih rest
    exact ⟨b, .go first before, last⟩

/-- Whether a distance is at most a depth, if there is one. -/
def Within {α : Type} (edge : α → α → Prop) (depth : Option Int) (a b : α) : Prop :=
  ∃ n, Walk edge n a b ∧ ∀ d ∈ depth, (n : Int) ≤ d

/-- What a trace can come to: an identifier taken for something, or a place in the code that is linked
to an identifier. -/
inductive TracePoint where
  | spec (kind : NodeKind) (id : Text)
  | place (kind : NodeKind) (id : Text) (location : Location)

def TracePoint.part : TracePoint → NodeKind
  | .spec kind _ => kind
  | .place .test _ _ => .test
  | .place _ _ _ => .implementation

def IdKind.nodeKind : IdKind → NodeKind
  | .requirement => .requirement
  | .criterion => .criterion
  | .property => .property
  | .component => .component

theorem IdKind.nodeKind_injective {a b : IdKind} (same : a.nodeKind = b.nodeKind) : a = b := by
  cases a <;> cases b <;> simp_all [nodeKind]

def TracePoint.ofId (id : Text) : TracePoint := .spec (Identifier.kind id).nodeKind id

theorem TracePoint.ofId_eq {id : Text} {kind : IdKind} (known : Identifier.kind id = kind) :
    ofId id = .spec kind.nodeKind id := by
  rw [ofId, known]

/-- Only identifiers are in the parts for identifiers. -/
theorem TracePoint.eq_spec_of_part {v : TracePoint} {kind : IdKind} (own : v.part = kind.nodeKind) :
    ∃ id, v = .spec kind.nodeKind id := by
  cases v with
  | spec k id => exact ⟨id, congrArg (TracePoint.spec · id) own⟩
  | place k id l => cases k <;> cases kind <;> cases own

theorem TracePoint.part_place (kind : NodeKind) (id : Text) (l : Location) :
    (place kind id l).part = .implementation ∨ (place kind id l).part = .test := by
  cases kind with
  | test => exact .inr rfl
  | _ => exact .inl rfl

/-- The kind of the nodes of the code that is linked to an identifier. -/
def codeKind (id : Text) : NodeKind :=
  if Identifier.kind id = .component then .component else .implementation

/-- Whether a point is of the kind that its identifier tells. -/
def TracePoint.Fits : TracePoint → Prop
  | .spec kind id => kind = (Identifier.kind id).nodeKind
  | .place kind id _ => kind = .test ∨ kind = codeKind id

namespace TraceIndex

def node? (i : TraceIndex) : TracePoint → Option TraceNode
  | .spec kind id => TraceChain.specNode? i kind id
  | .place kind id location => some ⟨id, kind, location⟩

inductive Forward (i : TraceIndex) : TracePoint → TracePoint → Prop
  | criterion {r a : Text} : a ∈ i.criteriaOf.get r →
      Forward i (.spec .requirement r) (.spec .criterion a)
  | component {a c : Text} : c ∈ i.componentsOf.get a →
      Forward i (.spec .criterion a) (.spec .component c)
  | code {a : Text} {l : Location} : l ∈ i.codeOf.get a →
      Forward i (.spec .criterion a) (.place .implementation a l)
  | test {a : Text} {l : Location} : l ∈ i.testsOf.get a →
      Forward i (.spec .criterion a) (.place .test a l)
  | componentCode {c : Text} {l : Location} : l ∈ i.componentCodeOf.get c →
      Forward i (.spec .component c) (.place .component c l)
  | propertyTest {p : Text} {l : Location} : l ∈ i.propertyTestsOf.get p →
      Forward i (.spec .property p) (.place .test p l)

/-- The criteria that a component or a property is linked to. -/
def linked (i : TraceIndex) (q : Text) : List Text :=
  match Identifier.kind q with
  | .component => i.implementedBy.get q
  | .property => i.validatedBy.get q
  | _ => []

/-- The edges against the direction, in a trace of one identifier: only from this one to the criteria
it is linked to, and from anything to its requirement. -/
inductive Reverse (i : TraceIndex) (q : Text) : TracePoint → TracePoint → Prop
  | linked {a : Text} : a ∈ i.linked q → Reverse i q (.ofId q) (.spec .criterion a)
  | requirement {kind : NodeKind} {a r : Text} : i.requirementOf.get? a = some r →
      Reverse i q (.spec kind a) (.spec .requirement r)

/-- The requirement that is kept: that of the identifier itself, or of the first criterion that it is
linked to and that has one. -/
def keptRequirement? (i : TraceIndex) (q : Text) : Option Text :=
  (i.requirementOf.get? q).or ((i.linked q).findSome? i.requirementOf.get?)

end TraceIndex

/-! ## Walks -/

section Walk

variable {α : Type} {edge : α → α → Prop} {o : TraceOptions} {a b : α} {s : Nat}

/-- Whether something is at most so far from another that is itself some steps away. -/
def WithinFrom (edge : α → α → Prop) (o : TraceOptions) (s : Nat) (a b : α) : Prop :=
  ∃ n, Walk edge n a b ∧ o.allows (s + n) = true

theorem within_iff : Within edge o.depth a b ↔ WithinFrom edge o 0 a b := by
  simp only [Within, WithinFrom, TraceOptions.allows, Nat.zero_add, Option.all_eq_true,
    decide_eq_true_eq]
  rfl

theorem TraceOptions.allows_of_le {t : Nat} (nearer : s ≤ t) (further : o.allows t = true) :
    o.allows s = true := by
  simp only [allows, Option.all_eq_true, decide_eq_true_eq] at further ⊢
  intro d given
  have := further d given
  omega

theorem withinFrom_iff : WithinFrom edge o s a b ↔
    o.allows s = true ∧ (b = a ∨ ∃ c, edge a c ∧ WithinFrom edge o (s + 1) c b) := by
  constructor
  · rintro ⟨n, walk, near⟩
    refine ⟨o.allows_of_le (Nat.le_add_right s n) near, ?_⟩
    cases walk with
    | stay => exact .inl rfl
    | go first rest => exact .inr ⟨_, first, _, rest, by rwa [Nat.add_right_comm]⟩
  · rintro ⟨near, rfl | ⟨c, first, n, rest, far⟩⟩
    · exact ⟨0, .stay b, near⟩
    · exact ⟨n + 1, .go first rest, by rwa [Nat.add_right_comm] at far⟩

/-- Away from the start something is near enough when it is so from the end of some edge. -/
theorem within_iff_of_ne (away : b ≠ a) :
    Within edge o.depth a b ↔ ∃ c, edge a c ∧ WithinFrom edge o 1 c b := by
  rw [within_iff, withinFrom_iff, or_iff_right away]
  constructor
  · exact And.right
  · rintro ⟨c, first, rest⟩
    exact ⟨o.allows_of_le (Nat.zero_le 1) (withinFrom_iff.mp rest).1, c, first, rest⟩

end Walk

/-! ## Forward -/

namespace TraceIndex

variable {i : TraceIndex} {o : TraceOptions} {s : Nat} {v w : TracePoint} {a c p r : Text}

theorem forward_requirement_iff : Forward i (.spec .requirement r) w ↔
    ∃ a ∈ i.criteriaOf.get r, w = .spec .criterion a := by
  constructor
  · intro edge
    cases edge with
    | criterion linked => exact ⟨_, linked, rfl⟩
  · rintro ⟨a, linked, rfl⟩
    exact .criterion linked

theorem forward_criterion_iff : Forward i (.spec .criterion a) w ↔
    (∃ c ∈ i.componentsOf.get a, w = .spec .component c) ∨
      (∃ l ∈ i.codeOf.get a, w = .place .implementation a l) ∨
      ∃ l ∈ i.testsOf.get a, w = .place .test a l := by
  constructor
  · intro edge
    cases edge with
    | component linked => exact .inl ⟨_, linked, rfl⟩
    | code linked => exact .inr (.inl ⟨_, linked, rfl⟩)
    | test linked => exact .inr (.inr ⟨_, linked, rfl⟩)
  · rintro (⟨c, linked, rfl⟩ | ⟨l, linked, rfl⟩ | ⟨l, linked, rfl⟩)
    · exact .component linked
    · exact .code linked
    · exact .test linked

theorem forward_component_iff : Forward i (.spec .component c) w ↔
    ∃ l ∈ i.componentCodeOf.get c, w = .place .component c l := by
  constructor
  · intro edge
    cases edge with
    | componentCode linked => exact ⟨_, linked, rfl⟩
  · rintro ⟨a, linked, rfl⟩
    exact .componentCode linked

theorem forward_property_iff : Forward i (.spec .property p) w ↔
    ∃ l ∈ i.propertyTestsOf.get p, w = .place .test p l := by
  constructor
  · intro edge
    cases edge with
    | propertyTest linked => exact ⟨_, linked, rfl⟩
  · rintro ⟨a, linked, rfl⟩
    exact .propertyTest linked

theorem not_forward_place {k : NodeKind} {l : Location} : ¬ Forward i (.place k a l) w := nofun

theorem within_place {k : NodeKind} {l : Location} :
    WithinFrom (Forward i) o s (.place k a l) v ↔ o.allows s = true ∧ v = .place k a l := by
  rw [withinFrom_iff]
  simp [not_forward_place]

theorem within_component : WithinFrom (Forward i) o s (.spec .component c) v ↔
    o.allows s = true ∧ (v = .spec .component c ∨
      o.allows (s + 1) = true ∧ ∃ l ∈ i.componentCodeOf.get c, v = .place .component c l) := by
  rw [withinFrom_iff]
  simp only [forward_component_iff]
  constructor
  · rintro ⟨near, rfl | ⟨w, ⟨l, linked, rfl⟩, rest⟩⟩
    · exact ⟨near, .inl rfl⟩
    · obtain ⟨far, rfl⟩ := within_place.mp rest
      exact ⟨near, .inr ⟨far, l, linked, rfl⟩⟩
  · rintro ⟨near, rfl | ⟨far, l, linked, rfl⟩⟩
    · exact ⟨near, .inl rfl⟩
    · exact ⟨near, .inr ⟨_, ⟨l, linked, rfl⟩, within_place.mpr ⟨far, rfl⟩⟩⟩

/-- What lies beyond a criterion from which a step leads so far. -/
theorem beyond_criterion_iff :
    (∃ w, Forward i (.spec .criterion a) w ∧ WithinFrom (Forward i) o s w v) ↔
      o.allows s = true ∧
        ((∃ c ∈ i.componentsOf.get a, v = .spec .component c) ∨
          (∃ l ∈ i.codeOf.get a, v = .place .implementation a l) ∨
          (∃ l ∈ i.testsOf.get a, v = .place .test a l) ∨
          o.allows (s + 1) = true ∧
            ∃ c ∈ i.componentsOf.get a, ∃ l ∈ i.componentCodeOf.get c, v = .place .component c l) := by
  simp only [forward_criterion_iff]
  constructor
  · rintro ⟨w, ⟨c, linked, rfl⟩ | ⟨l, linked, rfl⟩ | ⟨l, linked, rfl⟩, reached⟩
    · obtain ⟨near, rfl | ⟨far, l, marked, rfl⟩⟩ := within_component.mp reached
      · exact ⟨near, .inl ⟨c, linked, rfl⟩⟩
      · exact ⟨near, .inr (.inr (.inr ⟨far, c, linked, l, marked, rfl⟩))⟩
    · obtain ⟨near, rfl⟩ := within_place.mp reached
      exact ⟨near, .inr (.inl ⟨l, linked, rfl⟩)⟩
    · obtain ⟨near, rfl⟩ := within_place.mp reached
      exact ⟨near, .inr (.inr (.inl ⟨l, linked, rfl⟩))⟩
  · rintro ⟨near, ⟨c, linked, rfl⟩ | ⟨l, linked, rfl⟩ | ⟨l, linked, rfl⟩ |
      ⟨far, c, linked, l, marked, rfl⟩⟩
    · exact ⟨_, .inl ⟨c, linked, rfl⟩, within_component.mpr ⟨near, .inl rfl⟩⟩
    · exact ⟨_, .inr (.inl ⟨l, linked, rfl⟩), within_place.mpr ⟨near, rfl⟩⟩
    · exact ⟨_, .inr (.inr ⟨l, linked, rfl⟩), within_place.mpr ⟨near, rfl⟩⟩
    · exact ⟨_, .inl ⟨c, linked, rfl⟩, within_component.mpr ⟨near, .inr ⟨far, l, marked, rfl⟩⟩⟩

end TraceIndex

/-! ## In reverse -/

namespace TraceIndex

/-- Whether identifiers are of the kind that their place in the index asks for, and requirements have
a location. -/
structure Shaped (i : TraceIndex) : Prop where
  criteria : ∀ r a, a ∈ i.criteriaOf.get r → Identifier.kind a = .criterion
  components : ∀ a c, c ∈ i.componentsOf.get a → Identifier.kind c = .component
  requirement : ∀ a r, i.requirementOf.get? a = some r →
    Identifier.kind a = .criterion ∧ Identifier.kind r = .requirement ∧
      ∃ l, i.locations.get? r = some l

/-- What lies beyond an identifier in the forward direction. -/
def Onward (i : TraceIndex) (o : TraceOptions) (q : Text) (v : TracePoint) : Prop :=
  o.forward = true ∧ ∃ w, Forward i (.ofId q) w ∧ WithinFrom (Forward i) o 1 w v

/-- What lies beyond an identifier in the reverse direction, of the requirements the kept one. -/
def Backward (i : TraceIndex) (o : TraceOptions) (q : Text) (v : TracePoint) : Prop :=
  o.reverse = true ∧ (∃ w, Reverse i q (.ofId q) w ∧ WithinFrom (Reverse i q) o 1 w v) ∧
    ∀ r, v = .spec .requirement r → i.keptRequirement? q = some r

variable {i : TraceIndex} {o : TraceOptions} {s : Nat} {v w : TracePoint} {a q r : Text}

/-- Nothing lies beyond where no step is allowed. -/
theorem not_onward (far : ¬ (o.forward && o.allows 1) = true) : ¬ Onward i o q v := by
  rintro ⟨forward, w, _, reached⟩
  rw [Bool.and_eq_true] at far
  exact far ⟨forward, (withinFrom_iff.mp reached).1⟩

theorem onward_iff (near : (o.forward && o.allows 1) = true) :
    Onward i o q v ↔ ∃ w, Forward i (.ofId q) w ∧
      (v = w ∨ ∃ u, Forward i w u ∧ WithinFrom (Forward i) o 2 u v) := by
  rw [Bool.and_eq_true] at near
  simp only [Onward, near.1, true_and, @withinFrom_iff _ _ o _ v 1, near.2]

/-- Where no edge leads on from what is next to an identifier, only that lies onward. -/
theorem onward_iff_edge (near : (o.forward && o.allows 1) = true)
    (last : ∀ w u, Forward i (.ofId q) w → ¬ Forward i w u) :
    Onward i o q v ↔ Forward i (.ofId q) v := by
  rw [onward_iff near]
  constructor
  · rintro ⟨w, edge, rfl | ⟨u, further, _⟩⟩
    · exact edge
    · exact absurd further (last w u edge)
  · intro edge
    exact ⟨v, edge, .inl rfl⟩

theorem onward_property_iff (kind : Identifier.kind q = .property)
    (near : (o.forward && o.allows 1) = true) :
    Onward i o q v ↔ ∃ l ∈ i.propertyTestsOf.get q, v = .place .test q l := by
  have start : TracePoint.ofId q = .spec .property q := TracePoint.ofId_eq kind
  rw [onward_iff_edge near, start, forward_property_iff]
  intro w u edge
  rw [start, forward_property_iff] at edge
  obtain ⟨l, _, rfl⟩ := edge
  exact not_forward_place

theorem onward_component_iff (kind : Identifier.kind q = .component)
    (near : (o.forward && o.allows 1) = true) :
    Onward i o q v ↔ ∃ l ∈ i.componentCodeOf.get q, v = .place .component q l := by
  have start : TracePoint.ofId q = .spec .component q := TracePoint.ofId_eq kind
  rw [onward_iff_edge near, start, forward_component_iff]
  intro w u edge
  rw [start, forward_component_iff] at edge
  obtain ⟨l, _, rfl⟩ := edge
  exact not_forward_place

theorem linked_of_kind (kind : Identifier.kind q = .criterion ∨ Identifier.kind q = .requirement) :
    i.linked q = [] := by
  rcases kind with kind | kind
  · rw [linked, kind]
  · rw [linked, kind]

theorem reverse_criterion_iff : Reverse i q (.spec .criterion a) w ↔
    ∃ r, i.requirementOf.get? a = some r ∧ w = .spec .requirement r := by
  constructor
  · generalize start : TracePoint.spec .criterion a = u
    intro edge
    cases edge with
    | linked member =>
      have kind : Identifier.kind q = .criterion := by
        have same := (TracePoint.spec.inj start).1
        cases shape : Identifier.kind q with
        | criterion => rfl
        | _ => rw [shape] at same; cases same
      rw [linked_of_kind (.inl kind)] at member
      cases member
    | requirement found =>
      cases start
      exact ⟨_, found, rfl⟩
  · rintro ⟨r, found, rfl⟩
    exact .requirement found

theorem not_reverse_requirement (shaped : i.Shaped) (kind : Identifier.kind r = .requirement) :
    ¬ Reverse i q (.spec .requirement r) w := by
  generalize start : TracePoint.spec .requirement r = u
  intro edge
  cases edge with
  | linked member =>
    rw [← (TracePoint.spec.inj start).2, linked_of_kind (.inr kind)] at member
    cases member
  | requirement found =>
    cases start
    rw [(shaped.requirement _ _ found).1] at kind
    cases kind

theorem within_reverse_requirement (shaped : i.Shaped) (kind : Identifier.kind r = .requirement) :
    WithinFrom (Reverse i q) o s (.spec .requirement r) v ↔
      o.allows s = true ∧ v = .spec .requirement r := by
  rw [withinFrom_iff]
  simp only [not_reverse_requirement shaped kind, false_and, exists_false, or_false]

theorem within_reverse_criterion (shaped : i.Shaped) :
    WithinFrom (Reverse i q) o s (.spec .criterion a) v ↔ o.allows s = true ∧
      (v = .spec .criterion a ∨ o.allows (s + 1) = true ∧
        ∃ r, i.requirementOf.get? a = some r ∧ v = .spec .requirement r) := by
  rw [withinFrom_iff]
  simp only [reverse_criterion_iff]
  constructor
  · rintro ⟨near, here | ⟨_, ⟨r, found, rfl⟩, reached⟩⟩
    · exact ⟨near, .inl here⟩
    · obtain ⟨far, here⟩ :=
        (within_reverse_requirement shaped (shaped.requirement a r found).2.1).mp reached
      exact ⟨near, .inr ⟨far, r, found, here⟩⟩
  · rintro ⟨near, here | ⟨far, r, found, here⟩⟩
    · exact ⟨near, .inl here⟩
    · exact ⟨near, .inr ⟨_, ⟨r, found, rfl⟩,
        (within_reverse_requirement shaped (shaped.requirement a r found).2.1).mpr ⟨far, here⟩⟩⟩

theorem not_backward_requirement (shaped : i.Shaped) (kind : Identifier.kind q = .requirement) :
    ¬ Backward i o q v := by
  rintro ⟨_, ⟨w, edge, _⟩, _⟩
  rw [TracePoint.ofId, kind] at edge
  exact not_reverse_requirement shaped kind edge

theorem backward_criterion_iff (shaped : i.Shaped) (kind : Identifier.kind q = .criterion) :
    Backward i o q v ↔ (o.reverse && o.allows 1) = true ∧
      ∃ r, i.requirementOf.get? q = some r ∧ v = .spec .requirement r := by
  have start : TracePoint.ofId q = .spec .criterion q := TracePoint.ofId_eq kind
  rw [Bool.and_eq_true, Backward, start]
  simp only [reverse_criterion_iff]
  constructor
  · rintro ⟨reverse, ⟨_, ⟨r, found, rfl⟩, reached⟩, _⟩
    obtain ⟨near, here⟩ :=
      (within_reverse_requirement shaped (shaped.requirement q r found).2.1).mp reached
    exact ⟨⟨reverse, near⟩, r, found, here⟩
  · rintro ⟨⟨reverse, near⟩, r, found, rfl⟩
    refine ⟨reverse, ⟨_, ⟨r, found, rfl⟩, ?_⟩, ?_⟩
    · exact (within_reverse_requirement shaped (shaped.requirement q r found).2.1).mpr ⟨near, rfl⟩
    · rintro r' same
      cases same
      rw [keptRequirement?, found, Option.some_or]

/-- From a component or a property nothing leads back but the links to criteria. -/
theorem reverse_iff_linked (shaped : i.Shaped) (kind : Identifier.kind q ≠ .criterion) :
    Reverse i q (.ofId q) w ↔ ∃ a ∈ i.linked q, w = .spec .criterion a := by
  constructor
  · generalize start : TracePoint.ofId q = u
    intro edge
    cases edge with
    | linked member => exact ⟨_, member, rfl⟩
    | requirement found =>
      cases start
      exact absurd (shaped.requirement _ _ found).1 kind
  · rintro ⟨a, member, rfl⟩
    exact .linked member

theorem backward_iff (shaped : i.Shaped) (kind : Identifier.kind q ≠ .criterion) :
    Backward i o q v ↔ (o.reverse && o.allows 1) = true ∧
      ((∃ a ∈ i.linked q, v = .spec .criterion a) ∨
        o.allows 2 = true ∧
          ∃ r, (i.linked q).findSome? i.requirementOf.get? = some r ∧ v = .spec .requirement r) := by
  have kept : i.keptRequirement? q = (i.linked q).findSome? i.requirementOf.get? := by
    cases own : i.requirementOf.get? q with
    | none => rw [keptRequirement?, own, Option.none_or]
    | some r => exact absurd (shaped.requirement q r own).1 kind
  rw [Bool.and_eq_true, Backward, kept]
  simp only [reverse_iff_linked shaped kind]
  constructor
  · rintro ⟨reverse, ⟨_, ⟨a, member, rfl⟩, reached⟩, only⟩
    obtain ⟨near, here | ⟨far, r, _, here⟩⟩ := (within_reverse_criterion shaped).mp reached
    · exact ⟨⟨reverse, near⟩, .inl ⟨a, member, here⟩⟩
    · exact ⟨⟨reverse, near⟩, .inr ⟨far, r, only r here, here⟩⟩
  · rintro ⟨⟨reverse, near⟩, ⟨a, member, rfl⟩ | ⟨far, r, first, rfl⟩⟩
    · refine ⟨reverse, ⟨_, ⟨a, member, rfl⟩, ?_⟩, fun r same => ?_⟩
      · exact (within_reverse_criterion shaped).mpr ⟨near, .inl rfl⟩
      · cases same
    · obtain ⟨a, member, found⟩ := List.exists_of_findSome?_eq_some first
      refine ⟨reverse, ⟨_, ⟨a, member, rfl⟩, ?_⟩, ?_⟩
      · exact (within_reverse_criterion shaped).mpr ⟨near, .inr ⟨far, r, found, rfl⟩⟩
      · rintro r' same
        cases same
        exact first

/-! ## What is reached -/

/-- What a trace of an identifier is about. -/
def Reached (i : TraceIndex) (o : TraceOptions) (q : Text) (v : TracePoint) : Prop :=
  v = .ofId q ∨ Onward i o q v ∨ Backward i o q v

theorem reached_iff : i.Reached o q v ↔ v = .ofId q ∨
    (o.direction ≠ .reverse ∧ Within (Forward i) o.depth (.ofId q) v) ∨
    o.direction ≠ .forward ∧ Within (Reverse i q) o.depth (.ofId q) v ∧
      ∀ r, v = .spec .requirement r → i.keptRequirement? q = some r := by
  by_cases here : v = .ofId q
  · exact iff_of_true (.inl here) (.inl here)
  · simp only [Reached, Onward, Backward, TraceOptions.forward, TraceOptions.reverse,
      decide_eq_true_eq, within_iff_of_ne here]

theorem Forward.fits (shaped : i.Shaped) (edge : Forward i v w) (start : v.Fits) : w.Fits := by
  cases edge with
  | criterion linked => exact (congrArg IdKind.nodeKind (shaped.criteria _ _ linked)).symm
  | component linked => exact (congrArg IdKind.nodeKind (shaped.components _ _ linked)).symm
  | @code a =>
    have other : Identifier.kind a ≠ .component := by
      intro kind
      rw [TracePoint.Fits, kind] at start
      cases start
    exact .inr (if_neg other).symm
  | @componentCode c =>
    have own : Identifier.kind c = .component := by
      cases kind : Identifier.kind c with
      | component => rfl
      | _ => rw [TracePoint.Fits, kind] at start; cases start
    exact .inr (if_pos own).symm
  | test => exact .inl rfl
  | propertyTest => exact .inl rfl

theorem fits_of_walk (shaped : i.Shaped) {n : Nat} (walk : Walk (Forward i) n v w)
    (start : v.Fits) : w.Fits := by
  induction walk with
  | stay => exact start
  | go edge _ ih => exact ih (edge.fits shaped start)

/-- Whatever is reached is of the kind of its identifier, or a criterion by its link only. -/
theorem Reached.fits (shaped : i.Shaped) (reached : i.Reached o q v) :
    v.Fits ∨ ∃ a ∈ i.linked q, v = .spec .criterion a := by
  rcases reached with rfl | ⟨_, w, edge, n, walk, _⟩ | backward
  · exact .inl rfl
  · exact .inl (fits_of_walk shaped (.go edge walk) rfl)
  · by_cases kind : Identifier.kind q = .criterion
    · obtain ⟨_, r, found, rfl⟩ := (backward_criterion_iff shaped kind).mp backward
      exact .inl (congrArg IdKind.nodeKind (shaped.requirement q r found).2.1).symm
    · obtain ⟨_, member | ⟨_, r, first, rfl⟩⟩ := (backward_iff shaped kind).mp backward
      · exact .inr member
      · obtain ⟨a, _, found⟩ := List.exists_of_findSome?_eq_some first
        exact .inl (congrArg IdKind.nodeKind (shaped.requirement a r found).2.1).symm

end TraceIndex

end Traceability
