import Traceability.Proofs.Spec.Document
import Traceability.Proofs.Trace.Reach

/-!
# Traces and what they reach

The trace of an identifier consists of the nodes of all that is reached from it, whatever its kind, its
direction and its depth. Each of the four traces joins chains of which each shows the points of one
part.
-/
namespace Traceability

open Spec

namespace TraceIndex

variable {documents : List Document} {markers : List Marker}

/-- In the index of documents that were read, all is of the kind that its place asks for. -/
theorem shaped_build (parsed : ∀ d ∈ documents, d.Parsed) (markers : List Marker) :
    (build (.ofDocuments documents) markers).Shaped where
  criteria := by
    intro r a member
    obtain ⟨listed, _⟩ := mem_requirementLinks.mp (OrderedMultimap.mem_get_ofList.mp member)
    exact ((Catalogue.mem_idsOf_iff_kind parsed).mp listed).2
  components := by
    intro a c member
    obtain ⟨⟨owner, target⟩, linked, same⟩ := List.mem_map.mp (OrderedMultimap.mem_get_ofList.mp member)
    cases same
    obtain ⟨d, document, r, made, owned, kind, _⟩ := mem_referenceLinks.mp linked
    obtain ⟨x, defined, rfl, fits⟩ := (parsed d document).owner made owned
    rw [(parsed d document).kind_eq defined, fits, kind]
    rfl
  requirement := by
    intro a r found
    obtain ⟨⟨requirement, criterion⟩, linked, same⟩ :=
      List.mem_map.mp (OrderedMap.mem_of_get?_ofList found)
    cases same
    obtain ⟨listed, parent⟩ := mem_requirementLinks.mp linked
    obtain ⟨_, defined⟩ := Option.filter_eq_some_iff.mp parent
    exact ⟨((Catalogue.mem_idsOf_iff_kind parsed).mp listed).2,
      ((Catalogue.definesAs_iff_kind parsed).mp defined).2,
      located_iff.mpr (Catalogue.defines_of_definesAs defined)⟩

end TraceIndex

namespace TraceChain

open TraceIndex

variable {i : TraceIndex} {o : TraceOptions} {s : Nat} {a q : Text} {b c : TraceChain}
  {points further : TracePoint → Prop}

/-- Whether the parts of a chain hold the nodes of some points, and no others. -/
def Shows (i : TraceIndex) (c : TraceChain) (points : TracePoint → Prop) : Prop :=
  ∀ k n, n ∈ c.part k ↔ ∃ v, points v ∧ v.part = k ∧ i.node? v = some n

theorem Shows.congr (shown : Shows i c points) (same : ∀ v, points v ↔ further v) :
    Shows i c further := by
  intro k n
  simp only [shown k n, same]

theorem Shows.append (first : Shows i b points) (second : Shows i c further)
    (single : b.requirement = none ∨ c.requirement = none) :
    Shows i (b.append c) fun v => points v ∨ further v := by
  intro k n
  rw [part_append single, List.mem_append, first k n, second k n]
  simp only [or_and_right, exists_or]

theorem shows_concat {α : Type} {query : Text} {l : List α} {f : α → TraceChain}
    {pointsOf : α → TracePoint → Prop} (first : Shows i b points)
    (rest : ∀ x ∈ l, Shows i (f x) (pointsOf x)) (plain : ∀ x ∈ l, (f x).requirement = none) :
    Shows i (concat query (b :: l.map f)) fun v => points v ∨ ∃ x ∈ l, pointsOf x v := by
  intro k n
  have others : ∀ c ∈ l.map f, c.requirement = none := by
    intro c member
    obtain ⟨x, inside, rfl⟩ := List.mem_map.mp member
    exact plain x inside
  rw [part_concat others, List.mem_append, first k n, List.flatMap_map, List.mem_flatMap]
  constructor
  · rintro (⟨v, here, node⟩ | ⟨x, inside, member⟩)
    · exact ⟨v, .inl here, node⟩
    · obtain ⟨v, here, node⟩ := (rest x inside k n).mp member
      exact ⟨v, .inr ⟨x, inside, here⟩, node⟩
  · rintro ⟨v, here | ⟨x, inside, here⟩, node⟩
    · exact .inl ⟨v, here, node⟩
    · exact .inr ⟨x, inside, (rest x inside k n).mpr ⟨v, here, node⟩⟩

/-! ## Chains with one part -/

/-- A chain with one part shows the points of this part. -/
theorem shows_part {k : NodeKind} {listed : List TracePoint}
    (own : c.part k = listed.filterMap i.node?) (fits : ∀ v ∈ listed, v.part = k)
    (alone : ∀ k', k' ≠ k → c.part k' = []) : Shows i c (· ∈ listed) := by
  intro k' n
  by_cases same : k' = k
  · subst same
    rw [own, List.mem_filterMap]
    constructor
    · rintro ⟨v, member, node⟩
      exact ⟨v, member, fits v member, node⟩
    · rintro ⟨v, member, _, node⟩
      exact ⟨v, member, node⟩
  · rw [alone k' same]
    constructor
    · intro member
      cases member
    · rintro ⟨v, member, rfl, _⟩
      exact absurd (fits v member) same

theorem shows_nothing (query : Text) : Shows i { query } fun _ => False := by
  intro k n
  cases k <;> simp [part]

theorem shows_specs (kind : NodeKind) (ids : List Text)
    (own : c.part kind = ids.filterMap (specNode? i kind))
    (alone : ∀ k, k ≠ kind → c.part k = []) :
    Shows i c fun v => ∃ a ∈ ids, v = .spec kind a := by
  have listed : c.part kind = (ids.map (TracePoint.spec kind)).filterMap i.node? := by
    rw [own, List.filterMap_map]
    rfl
  refine (shows_part listed ?_ alone).congr fun v => ?_
  · intro v member
    obtain ⟨a, _, rfl⟩ := List.mem_map.mp member
    rfl
  · simp only [List.mem_map, eq_comm]

theorem shows_places {k kind : NodeKind} {places : List Location}
    (own : c.part k = nodesAt kind a places)
    (fits : ∀ l, (TracePoint.place kind a l).part = k)
    (alone : ∀ k', k' ≠ k → c.part k' = []) :
    Shows i c fun v => ∃ l ∈ places, v = .place kind a l := by
  have listed : c.part k = (places.map (TracePoint.place kind a)).filterMap i.node? := by
    rw [own, List.filterMap_map, nodesAt, ← List.filterMap_eq_map]
    rfl
  refine (shows_part listed ?_ alone).congr fun v => ?_
  · intro v member
    obtain ⟨l, _, rfl⟩ := List.mem_map.mp member
    exact fits l
  · simp only [List.mem_map, eq_comm]

theorem toList_specNode? (kind : NodeKind) (a : Text) :
    (specNode? i kind a).toList = [a].filterMap (specNode? i kind) := by
  rw [List.filterMap_cons]
  cases specNode? i kind a <;> rfl

theorem shows_requirement (query : Text) (kept : Option Text) :
    Shows i { query, requirement := kept.bind (specNode? i .requirement) } fun v =>
      ∃ r, kept = some r ∧ v = .spec .requirement r := by
  refine (shows_specs .requirement kept.toList ?_ fun k other => ?_).congr fun v => ?_
  · cases kept with
    | none => rfl
    | some r => exact toList_specNode? .requirement r
  · cases k with
    | requirement => exact absurd rfl other
    | _ => rfl
  · simp only [Option.mem_toList]

theorem shows_criteria (query : Text) (ids : List Text) :
    Shows i { query, criteria := ids.filterMap (specNode? i .criterion) } fun v =>
      ∃ a ∈ ids, v = .spec .criterion a := by
  refine shows_specs .criterion ids rfl fun k other => ?_
  cases k with
  | criterion => exact absurd rfl other
  | _ => rfl

theorem shows_components (query : Text) (ids : List Text) :
    Shows i { query, components := ids.filterMap (specNode? i .component) } fun v =>
      ∃ a ∈ ids, v = .spec .component a := by
  refine shows_specs .component ids rfl fun k other => ?_
  cases k with
  | component => exact absurd rfl other
  | _ => rfl

theorem shows_properties (query : Text) (ids : List Text) :
    Shows i { query, properties := ids.filterMap (specNode? i .property) } fun v =>
      ∃ a ∈ ids, v = .spec .property a := by
  refine shows_specs .property ids rfl fun k other => ?_
  cases k with
  | property => exact absurd rfl other
  | _ => rfl

theorem shows_componentCode (query component : Text) :
    Shows i { query, implementations := componentCode i component } fun v =>
      ∃ l ∈ i.componentCodeOf.get component, v = .place .component component l := by
  refine shows_places rfl (fun _ => rfl) fun k other => ?_
  cases k with
  | implementation => exact absurd rfl other
  | _ => rfl

theorem shows_tests (query : Text) (places : List Location) :
    Shows i { query, tests := nodesAt .test a places } fun v =>
      ∃ l ∈ places, v = .place .test a l := by
  refine shows_places rfl (fun _ => rfl) fun k other => ?_
  cases k with
  | test => exact absurd rfl other
  | _ => rfl

theorem shows_beyondCriterion (query : Text) : Shows i (beyondCriterion i o query a s) fun v =>
    ∃ w, Forward i (.spec .criterion a) w ∧ WithinFrom (Forward i) o s w v := by
  intro k n
  simp only [beyond_criterion_iff, beyondCriterion]
  split
  · next near =>
    constructor
    · intro member
      cases k with
      | component =>
        obtain ⟨c, linked, node⟩ := List.mem_filterMap.mp member
        exact ⟨.spec .component c, ⟨near, .inl ⟨c, linked, rfl⟩⟩, rfl, node⟩
      | implementation =>
        rcases List.mem_append.mp member with own | further
        · obtain ⟨l, linked, rfl⟩ := List.mem_map.mp own
          exact ⟨.place .implementation a l, ⟨near, .inr (.inl ⟨l, linked, rfl⟩)⟩, rfl, rfl⟩
        · split at further
          · next far =>
            obtain ⟨c, linked, code⟩ := List.mem_flatMap.mp further
            obtain ⟨l, marked, rfl⟩ := List.mem_map.mp code
            exact ⟨.place .component c l, ⟨near, .inr (.inr (.inr ⟨far, c, linked, l, marked, rfl⟩))⟩,
              rfl, rfl⟩
          · cases further
      | test =>
        obtain ⟨l, linked, rfl⟩ := List.mem_map.mp member
        exact ⟨.place .test a l, ⟨near, .inr (.inr (.inl ⟨l, linked, rfl⟩))⟩, rfl, rfl⟩
      | _ => cases member
    · rintro ⟨v, ⟨_, ⟨c, linked, rfl⟩ | ⟨l, linked, rfl⟩ | ⟨l, linked, rfl⟩ |
        ⟨far, c, linked, l, marked, rfl⟩⟩, rfl, node⟩
      · exact List.mem_filterMap.mpr ⟨c, linked, node⟩
      · cases node
        exact List.mem_append_left _ (List.mem_map.mpr ⟨l, linked, rfl⟩)
      · cases node
        exact List.mem_map.mpr ⟨l, linked, rfl⟩
      · cases node
        refine List.mem_append_right _ ?_
        rw [if_pos far]
        exact List.mem_flatMap.mpr ⟨c, linked, List.mem_map.mpr ⟨l, marked, rfl⟩⟩
  · next far =>
    constructor
    · intro member
      cases k <;> cases member
    · rintro ⟨_, ⟨near, _⟩, _⟩
      exact absurd near far

/-! ## The four traces -/

theorem requirement_beyondCriterion (query : Text) :
    (beyondCriterion i o query a s).requirement = none := by
  unfold beyondCriterion
  split <;> rfl

theorem shows_fromRequirement (shaped : i.Shaped) (kind : Identifier.kind q = .requirement) :
    Shows i (fromRequirement i o q) (i.Reached o q) := by
  have own : Shows i { query := q, requirement := specNode? i .requirement q } (· = .ofId q) :=
    (shows_requirement q (some q)).congr fun v => by simp [TracePoint.ofId_eq kind, IdKind.nodeKind]
  have beside (a : Text) : Shows i { query := q, criteria := (specNode? i .criterion a).toList }
      (· = .spec .criterion a) := by
    rw [toList_specNode?]
    exact (shows_criteria q [a]).congr fun v => by simp
  have onward (v : TracePoint) : i.Reached o q v ↔ v = .ofId q ∨ Onward i o q v := by
    simp only [Reached, not_backward_requirement shaped kind, or_false]
  rw [fromRequirement]
  split
  · next near =>
    refine (shows_concat own (fun a _ => (beside a).append (shows_beyondCriterion q) (.inl rfl))
      fun a _ => requirement_beyondCriterion q).congr fun v => ?_
    rw [onward, onward_iff near, TracePoint.ofId_eq kind]
    simp only [IdKind.nodeKind, forward_requirement_iff]
    constructor
    · rintro (here | ⟨a, linked, reached⟩)
      · exact .inl here
      · exact .inr ⟨_, ⟨a, linked, rfl⟩, reached⟩
    · rintro (here | ⟨_, ⟨a, linked, rfl⟩, reached⟩)
      · exact .inl here
      · exact .inr ⟨a, linked, reached⟩
  · next far =>
    refine own.congr fun v => ?_
    rw [onward, or_iff_left (not_onward far)]

/-- The requirement of a criterion, if a step leads there. -/
def nearRequirement? (i : TraceIndex) (o : TraceOptions) (criterion : Text) : Option Text :=
  if o.reverse && o.allows 1 then i.requirementOf.get? criterion else none

theorem fromCriterion_eq : fromCriterion i o q =
    let self := append { query := q, criteria := [q].filterMap (specNode? i .criterion) }
      { query := q, requirement := (nearRequirement? i o q).bind (specNode? i .requirement) }
    if o.forward then self.append (beyondCriterion i o q q 1) else self := by
  have near : (nearRequirement? i o q).bind (specNode? i .requirement) =
      if o.reverse && o.allows 1 then requirementOf? i q else none := by
    rw [nearRequirement?]
    split <;> rfl
  rw [fromCriterion, toList_specNode?, near]
  simp [append]

theorem shows_fromCriterion (shaped : i.Shaped) (kind : Identifier.kind q = .criterion) :
    Shows i (fromCriterion i o q) (i.Reached o q) := by
  have own : Shows i { query := q, criteria := [q].filterMap (specNode? i .criterion) }
      (· = .ofId q) :=
    (shows_criteria q [q]).congr fun v => by simp [TracePoint.ofId_eq kind, IdKind.nodeKind]
  have back : Shows i
      { query := q, requirement := (nearRequirement? i o q).bind (specNode? i .requirement) }
      (Backward i o q) := by
    refine (shows_requirement q _).congr fun v => ?_
    simp only [nearRequirement?, backward_criterion_iff shaped kind, Option.ite_none_right_eq_some,
      and_assoc, exists_and_left]
  have self := own.append back (.inl rfl)
  rw [fromCriterion_eq]
  dsimp only
  split
  · next forward =>
    refine (self.append (shows_beyondCriterion q)
      (.inr (requirement_beyondCriterion q))).congr fun v => ?_
    rw [Reached, Onward, and_iff_right forward, TracePoint.ofId_eq kind, or_assoc,
      or_comm (a := Backward i o q v)]
    rfl
  · next other =>
    refine self.congr fun v => ?_
    rw [Reached, or_iff_right fun onward : Onward i o q v => other onward.1]

/-- The requirement of the first criterion that has one. -/
theorem findSome_requirementOf (shaped : i.Shaped) (criteria : List Text) :
    criteria.findSome? (requirementOf? i) =
      (criteria.findSome? i.requirementOf.get?).bind (specNode? i .requirement) := by
  induction criteria with
  | nil => rfl
  | cons a rest ih =>
    rw [List.findSome?_cons, List.findSome?_cons, requirementOf?]
    cases found : i.requirementOf.get? a with
    | none => exact ih
    | some r =>
      obtain ⟨_, _, l, located⟩ := shaped.requirement a r found
      rw [Option.bind_some, specNode?, located]
      rfl

theorem linkedCriteria_eq (shaped : i.Shaped) (near : o.allows 1 = true) (query : Text)
    (criteria : List Text) : linkedCriteria i o query criteria =
      append { query, criteria := criteria.filterMap (specNode? i .criterion) }
        { query, requirement := (if o.allows 2 then criteria.findSome? i.requirementOf.get?
            else none).bind (specNode? i .requirement) } := by
  rw [linkedCriteria, if_pos near, findSome_requirementOf shaped]
  split <;> simp [append]

theorem shows_linkedCriteria (shaped : i.Shaped) (kind : Identifier.kind q ≠ .criterion)
    (reverse : o.reverse = true) :
    Shows i (linkedCriteria i o q (i.linked q)) (Backward i o q) := by
  by_cases near : o.allows 1 = true
  · rw [linkedCriteria_eq shaped near]
    refine ((shows_criteria q _).append (shows_requirement q _) (.inl rfl)).congr fun v => ?_
    simp only [backward_iff shaped kind, reverse, near, Bool.and_self, true_and,
      Option.ite_none_right_eq_some, and_assoc, exists_and_left]
  · rw [linkedCriteria, if_neg near]
    refine (shows_nothing q).congr fun v => ?_
    rw [backward_iff shaped kind, Bool.and_eq_true]
    exact iff_of_false id fun back => near back.1.2

/-- The criteria that an identifier is linked to join a chain of what lies onward. -/
theorem Shows.withLinked (self : Shows i c fun v => v = .ofId q ∨ Onward i o q v)
    (plain : c.requirement = none) (shaped : i.Shaped) (kind : Identifier.kind q ≠ .criterion) :
    Shows i (if o.reverse then c.append (linkedCriteria i o q (i.linked q)) else c)
      (i.Reached o q) := by
  split
  · next reverse =>
    refine (self.append (shows_linkedCriteria shaped kind reverse) (.inl plain)).congr fun v => ?_
    rw [Reached, or_assoc]
  · next other =>
    refine self.congr fun v => ?_
    rw [Reached, or_iff_left fun backward : Backward i o q v => other backward.1]

theorem shows_fromProperty (shaped : i.Shaped) (kind : Identifier.kind q = .property) :
    Shows i (fromProperty i o q) (i.Reached o q) := by
  have own : Shows i { query := q, properties := [q].filterMap (specNode? i .property) }
      (· = .ofId q) :=
    (shows_properties q [q]).congr fun v => by simp [TracePoint.ofId_eq kind, IdKind.nodeKind]
  have onward : Shows i
      { query := q
        tests := if o.forward && o.allows 1 then nodesAt .test q (i.propertyTestsOf.get q) else [] }
      (Onward i o q) := by
    split
    · next near => exact (shows_tests q _).congr fun v => (onward_property_iff kind near).symm
    · next far => exact (shows_nothing q).congr fun v => iff_of_false id (not_onward far)
  have self := own.append onward (.inl rfl)
  have other : Identifier.kind q ≠ .criterion := by rw [kind]; decide
  have linked : i.linked q = i.validatedBy.get q := by rw [TraceIndex.linked, kind]
  have joined := self.withLinked rfl shaped other
  rw [linked] at joined
  rw [fromProperty, toList_specNode?]
  simpa [append] using joined

theorem shows_fromComponent (shaped : i.Shaped) (kind : Identifier.kind q = .component) :
    Shows i (fromComponent i o q) (i.Reached o q) := by
  have own : Shows i { query := q, components := [q].filterMap (specNode? i .component) }
      (· = .ofId q) :=
    (shows_components q [q]).congr fun v => by simp [TracePoint.ofId_eq kind, IdKind.nodeKind]
  have onward : Shows i
      { query := q
        implementations := if o.forward && o.allows 1 then componentCode i q else [] }
      (Onward i o q) := by
    split
    · next near =>
      exact (shows_componentCode q q).congr fun v => (onward_component_iff kind near).symm
    · next far => exact (shows_nothing q).congr fun v => iff_of_false id (not_onward far)
  have self := own.append onward (.inl rfl)
  have other : Identifier.kind q ≠ .criterion := by rw [kind]; decide
  have linked : i.linked q = i.implementedBy.get q := by rw [TraceIndex.linked, kind]
  have joined := self.withLinked rfl shaped other
  rw [linked] at joined
  rw [fromComponent, toList_specNode?]
  simpa [append] using joined

/-! ## All traces -/

/-- What a trace gathers before it is restricted. -/
def gathered (i : TraceIndex) (o : TraceOptions) (id : Text) : TraceChain :=
  match Identifier.kind id with
  | .requirement => fromRequirement i o id
  | .criterion => fromCriterion i o id
  | .property => fromProperty i o id
  | .component => fromComponent i o id

theorem resolve_eq (i : TraceIndex) (o : TraceOptions) (id : Text) :
    resolve i o id = restrict o (gathered i o id) := rfl

theorem shows_gathered (shaped : i.Shaped) : Shows i (gathered i o q) (i.Reached o q) := by
  unfold gathered
  split
  · next kind => exact shows_fromRequirement shaped kind
  · next kind => exact shows_fromCriterion shaped kind
  · next kind => exact shows_fromProperty shaped kind
  · next kind => exact shows_fromComponent shaped kind

/-- The kind of a node in a part of a chain, told from its identifier. -/
def kindIn (k : NodeKind) (id : Text) : NodeKind :=
  match k with
  | .implementation => codeKind id
  | k => k

theorem kind_of_mem_gathered (shaped : i.Shaped) {k : NodeKind} {n : TraceNode}
    (member : n ∈ (gathered i o q).part k) : n.kind = kindIn k n.id := by
  obtain ⟨v, reached, rfl, node⟩ := (shows_gathered shaped k n).mp member
  rcases reached.fits shaped with fits | ⟨a, _, rfl⟩
  · cases v with
    | spec kind id =>
      obtain ⟨l, _, rfl⟩ := Option.map_eq_some_iff.mp node
      rw [TracePoint.Fits] at fits
      change kind = kindIn kind id
      rw [fits]
      cases Identifier.kind id <;> rfl
    | place kind id l =>
      cases node
      rcases fits with rfl | rfl
      · rfl
      · change codeKind id = kindIn (TracePoint.part (.place (codeKind id) id l)) id
        unfold codeKind
        split <;> simp [TracePoint.part, kindIn, codeKind, *]
  · obtain ⟨l, _, rfl⟩ := Option.map_eq_some_iff.mp node
    rfl

theorem mem_nodes_resolve (shaped : i.Shaped) {direction : Direction} {depth : Option Int}
    {n : TraceNode} : n ∈ (resolve i { direction, depth } q).nodes ↔
      ∃ v, i.Reached { direction, depth } q v ∧ i.node? v = some n := by
  simp only [mem_nodes_iff, resolve_eq,
    mem_part_restrict_iff fun _ => kind_of_mem_gathered shaped, shows_gathered shaped _ n]
  constructor
  · rintro ⟨_, v, reached, _, node⟩
    exact ⟨v, reached, node⟩
  · rintro ⟨v, reached, node⟩
    exact ⟨v.part, v, reached, rfl, node⟩

/-- Resolution is reachability within a depth: the nodes of a trace are those of the identifier itself,
of all that is near enough along the forward edges, unless they are excluded, and of all that is near
enough along the reverse edges, unless they are, where of the requirements only the first is kept. -/
theorem mem_nodes_resolve_iff {documents : List Document} (parsed : ∀ d ∈ documents, d.Parsed)
    (markers : List Marker) (q : Text) (direction : Direction) (depth : Option Int) :
    let i := TraceIndex.build (.ofDocuments documents) markers
    (q ∈ i.ids → ∃ n, i.node? (.ofId q) = some n) ∧
      ∀ n, n ∈ (resolve i { direction, depth } q).nodes ↔ ∃ v, i.node? v = some n ∧
        (v = .ofId q ∨
          (direction ≠ .reverse ∧ Within (Forward i) depth (.ofId q) v) ∨
          direction ≠ .forward ∧ Within (Reverse i q) depth (.ofId q) v ∧
            ∀ r, v = .spec .requirement r → i.keptRequirement? q = some r) := by
  intro i
  have shaped : i.Shaped := shaped_build parsed markers
  constructor
  · intro known
    obtain ⟨l, located⟩ := OrderedMap.mem_keys_iff.mp known
    exact ⟨⟨q, _, l⟩, congrArg (Option.map _) located⟩
  · intro n
    rw [mem_nodes_resolve shaped]
    simp only [reached_iff, and_comm]

/-- A requirement with a criterion, and a component that implements it. -/
def readingSpec : Document :=
  Document.read ["IMPLEMENTS:"] "x.md"
    "### X-1: Reading\n- X-1_AC-1 Reads\n### X-Loader\nIMPLEMENTS: X-1_AC-1"

/-- Two steps back from a component there is the requirement of its first criterion. -/
theorem mem_nodes_resolve_loader :
    let i := TraceIndex.build (.ofDocuments [readingSpec]) []
    (∀ d ∈ [readingSpec], d.Parsed) ∧
      (resolve i { direction := .reverse, depth := some 2 } "X-Loader").nodes =
        [⟨"X-1", .requirement, ⟨"x.md", 1⟩⟩, ⟨"X-1_AC-1", .criterion, ⟨"x.md", 2⟩⟩,
          ⟨"X-Loader", .component, ⟨"x.md", 3⟩⟩] ∧
      (("X-Loader" : Text) ∈ i.ids → ∃ n, i.node? (.ofId "X-Loader") = some n) ∧
      ∀ n, n ∈ (resolve i { direction := .reverse, depth := some 2 } "X-Loader").nodes ↔
        ∃ v, i.node? v = some n ∧
          (v = .ofId "X-Loader" ∨
            (Direction.reverse ≠ .reverse ∧ Within (Forward i) (some 2) (.ofId "X-Loader") v) ∨
            Direction.reverse ≠ .forward ∧
              Within (Reverse i "X-Loader") (some 2) (.ofId "X-Loader") v ∧
              ∀ r, v = .spec .requirement r → i.keptRequirement? "X-Loader" = some r) := by
  intro i
  have parsed : ∀ d ∈ [readingSpec], d.Parsed := List.forall_mem_singleton.mpr (Document.parsed_read _ _ _)
  exact ⟨parsed, by decide +kernel,
    mem_nodes_resolve_iff parsed [] "X-Loader" .reverse (some 2)⟩

end TraceChain

end Traceability
