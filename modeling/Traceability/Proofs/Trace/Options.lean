import Traceability.Proofs.Trace.Resolve

/-!
# Trace options as filters

Whether options let a trace come to a node can be told from the node: from its identifier, whether it is
in the scope, and from its level in the graph, in what direction and how many steps away it lies. So a
trace with options is the whole trace, part by part, without the nodes that the options leave out, and
what narrower options show the wider ones show in the same order.
-/
namespace Traceability

/-! ## Levels -/

/-- How many steps lie between requirements and identifiers of a kind. -/
def IdKind.level : IdKind → Nat
  | .requirement => 0
  | .criterion => 1
  | .property | .component => 2

/-- Whether options let a trace from one level come to another one. -/
def TraceOptions.reaches (o : TraceOptions) (start level : Nat) : Bool :=
  if start < level then o.forward && o.allows (level - start)
  else if level < start then o.reverse && o.allows (start - level)
  else true

namespace TraceOptions

variable {o o' : TraceOptions} {s l : Nat}

/-- Where a step is too far, the next one is. -/
theorem allows_succ (far : o.allows s = false) : o.allows (s + 1) = false := by
  rw [Bool.eq_false_iff] at far ⊢
  exact mt (allows_of_le (Nat.le_succ s)) far

theorem reaches_self (o : TraceOptions) (s : Nat) : o.reaches s s = true := by
  simp [reaches]

theorem reaches_onward (onward : s < l) : o.reaches s l = (o.forward && o.allows (l - s)) := by
  simp [reaches, onward]

theorem reaches_back (back : l < s) : o.reaches s l = (o.reverse && o.allows (s - l)) := by
  simp [reaches, back, Nat.lt_asymm back]

/-- With more depth a trace comes at least as far. -/
theorem reaches_of_deeper {depth : Option Int} (deeper : ∀ e ∈ depth, ∃ d ∈ o.depth, d ≤ e)
    (near : o.reaches s l = true) : TraceOptions.reaches { o with depth } s l = true := by
  have allowed (n : Nat) (own : o.allows n = true) :
      TraceOptions.allows { o with depth } n = true := by
    simp only [allows, Option.all_eq_true, decide_eq_true_eq] at own ⊢
    intro e given
    obtain ⟨d, bound, below⟩ := deeper e given
    exact Int.le_trans (own d bound) below
  rcases Nat.lt_trichotomy s l with onward | rfl | back
  · rw [reaches_onward onward, Bool.and_eq_true] at near ⊢
    exact ⟨near.1, allowed _ near.2⟩
  · exact reaches_self _ s
  · rw [reaches_back back, Bool.and_eq_true] at near ⊢
    exact ⟨near.1, allowed _ near.2⟩

/-- In both directions a trace comes to what it comes to in one of them. -/
theorem reaches_both (o : TraceOptions) (s l : Nat) :
    TraceOptions.reaches { o with direction := .both } s l =
      (TraceOptions.reaches { o with direction := .forward } s l ||
        TraceOptions.reaches { o with direction := .reverse } s l) := by
  simp only [reaches, forward, reverse, allows]
  split
  · simp
  · split <;> simp

end TraceOptions

namespace TraceChain

open TraceIndex Spec

variable {i : TraceIndex} {o : TraceOptions} {a q : Text} {k : NodeKind} {s : Nat}

/-- The level of a node that stands in a part of a chain. Code and tests lie behind their identifier. -/
def levelIn (k : NodeKind) (n : TraceNode) : Nat :=
  match k with
  | .requirement => 0
  | .criterion => 1
  | .property | .component => 2
  | .implementation | .test => (Identifier.kind n.id).level + 1

/-- The nodes of a part of a chain that options let a trace from a level come to. -/
def near (o : TraceOptions) (start : Nat) (k : NodeKind) (nodes : List TraceNode) :
    List TraceNode :=
  nodes.filter fun n => o.reaches start (levelIn k n)

theorem near_append (nodes more : List TraceNode) :
    near o s k (nodes ++ more) = near o s k nodes ++ near o s k more :=
  List.filter_append ..

theorem near_flatMap {α : Type} (l : List α) (f : α → List TraceNode) :
    near o s k (l.flatMap f) = l.flatMap fun a => near o s k (f a) :=
  List.filter_flatMap

/-- Nodes of one level are all near or all far. -/
theorem near_of_level {nodes : List TraceNode} {level : Nat}
    (own : ∀ n ∈ nodes, levelIn k n = level) :
    near o s k nodes = if o.reaches s level then nodes else [] := by
  have same : near o s k nodes = nodes.filter fun _ => o.reaches s level :=
    List.filter_congr fun n member => by rw [own n member]
  rw [same]
  split
  · next reached => simp [reached]
  · next far => simp [far]

/-- What stands in the part of its own kind for an identifier is near from there. -/
theorem near_self {nodes : List TraceNode} (own : ∀ n ∈ nodes, levelIn k n = s) :
    near o s k nodes = nodes := by
  rw [near_of_level own, if_pos (o.reaches_self s)]

theorem near_onward {nodes : List TraceNode} (level : Nat) (own : ∀ n ∈ nodes, levelIn k n = level)
    (onward : s < level) :
    near o s k nodes = if o.forward && o.allows (level - s) then nodes else [] := by
  rw [near_of_level own, TraceOptions.reaches_onward onward]

theorem near_back {nodes : List TraceNode} (level : Nat) (own : ∀ n ∈ nodes, levelIn k n = level)
    (back : level < s) :
    near o s k nodes = if o.reverse && o.allows (s - level) then nodes else [] := by
  rw [near_of_level own, TraceOptions.reaches_back back]

theorem level_nodesAt (code : k = .implementation ∨ k = .test) (kind : NodeKind) (a : Text)
    (places : List Location) :
    ∀ n ∈ nodesAt kind a places, levelIn k n = (Identifier.kind a).level + 1 := by
  intro n member
  obtain ⟨l, _, rfl⟩ := List.mem_map.mp member
  rcases code with rfl | rfl <;> rfl

/-! ## What lies near a criterion -/

theorem near_beyondCriterion (shaped : i.Shaped) (kind : Identifier.kind a = .criterion)
    (query : Text) {steps : Nat} (start : s + steps = 2) (away : 0 < steps) :
    near o s k ((beyondCriterion i {} query a steps).part k) =
      if o.forward then (beyondCriterion i o query a steps).part k else [] := by
  have whole : beyondCriterion i {} query a steps =
      { query
        components := (i.componentsOf.get a).filterMap (specNode? i .component)
        implementations := nodesAt .implementation a (i.codeOf.get a) ++
          (i.componentsOf.get a).flatMap (componentCode i)
        tests := nodesAt .test a (i.testsOf.get a) } := rfl
  have two : 2 - s = steps := by omega
  have three : 3 - s = steps + 1 := by omega
  have level : (Identifier.kind a).level = 1 := by rw [kind]; rfl
  rw [whole, beyondCriterion]
  cases k with
  | component =>
    rw [part, near_onward 2 (fun _ _ => rfl) (by omega), two]
    cases o.forward <;> cases o.allows steps <;> rfl
  | test =>
    have own := level_nodesAt (k := .test) (.inr rfl) .test a (i.testsOf.get a)
    rw [level] at own
    rw [part, near_onward 2 own (by omega), two]
    cases o.forward <;> cases o.allows steps <;> rfl
  | implementation =>
    have own := level_nodesAt (k := .implementation) (.inl rfl) .implementation a (i.codeOf.get a)
    rw [level] at own
    have further : ∀ n ∈ (i.componentsOf.get a).flatMap (componentCode i),
        levelIn .implementation n = 3 := by
      intro n member
      obtain ⟨c, linked, code⟩ := List.mem_flatMap.mp member
      have behind := level_nodesAt (k := .implementation) (.inl rfl) _ _ _ n code
      rwa [shaped.components a c linked] at behind
    rw [part, near_append, near_onward 2 own (by omega), near_onward 3 further (by omega), two, three]
    cases reached : o.allows steps with
    | true => cases o.forward <;> rfl
    | false =>
      rw [TraceOptions.allows_succ reached]
      cases o.forward <;> rfl
  | _ =>
    cases o.forward <;> cases o.allows steps <;> rfl

/-! ## Whole traces -/

/-- The criteria that an identifier is linked to and the requirement of the first that has one. -/
theorem near_linkedCriteria (query : Text) (criteria : List Text) :
    near o 2 k ((linkedCriteria i {} query criteria).part k) =
      if o.reverse then (linkedCriteria i o query criteria).part k else [] := by
  have whole : linkedCriteria i {} query criteria =
      { query
        criteria := criteria.filterMap (specNode? i .criterion)
        requirement := criteria.findSome? (requirementOf? i) } := rfl
  rw [whole, linkedCriteria]
  cases k with
  | criterion =>
    rw [part, near_back 1 (fun _ _ => rfl) (by omega)]
    cases o.reverse <;> cases o.allows 1 <;> rfl
  | requirement =>
    rw [part, near_back 0 (fun _ _ => rfl) (by omega)]
    cases reached : o.allows 1 with
    | true => cases o.reverse <;> cases o.allows 2 <;> rfl
    | false =>
      rw [TraceOptions.allows_succ reached]
      cases o.reverse <;> rfl
  | _ =>
    cases o.reverse <;> cases o.allows 1 <;> rfl

theorem part_fromRequirement : (fromRequirement i o q).part k =
    part { query := q, requirement := specNode? i .requirement q } k ++
      if o.forward && o.allows 1 then (i.criteriaOf.get q).flatMap fun a =>
        part { query := q, criteria := (specNode? i .criterion a).toList } k ++
          (beyondCriterion i o q a 2).part k
      else [] := by
  rw [fromRequirement]
  split
  · rw [part_concat, List.flatMap_map]
    · congr 2
      funext a
      exact part_append (.inl rfl)
    · intro b member
      obtain ⟨a, _, rfl⟩ := List.mem_map.mp member
      exact requirement_beyondCriterion q
  · rw [List.append_nil]

/-- Beyond a criterion there is nothing where no step is allowed. -/
theorem part_beyondCriterion_of_far {steps : Nat} (far : o.allows steps = false) (query : Text) :
    (beyondCriterion i o query a steps).part k = [] := by
  rw [beyondCriterion, far]
  cases k <;> rfl

theorem near_fromRequirement (shaped : i.Shaped) :
    near o 0 k ((fromRequirement i {} q).part k) = (fromRequirement i o q).part k := by
  have own : ∀ n ∈ part { query := q, requirement := specNode? i .requirement q } k,
      levelIn k n = 0 := by
    intro n member
    cases k with
    | requirement => rfl
    | _ => cases member
  have each (a : Text) (linked : a ∈ i.criteriaOf.get q) :
      near o 0 k (part { query := q, criteria := (specNode? i .criterion a).toList } k ++
          (beyondCriterion i {} q a 2).part k) =
        if o.forward && o.allows 1 then
          part { query := q, criteria := (specNode? i .criterion a).toList } k ++
            (beyondCriterion i o q a 2).part k
        else [] := by
    have here : ∀ n ∈ part { query := q, criteria := (specNode? i .criterion a).toList } k,
        levelIn k n = 1 := by
      intro n member
      cases k with
      | criterion => rfl
      | _ => cases member
    rw [near_append, near_onward 1 here (by omega),
      near_beyondCriterion shaped (shaped.criteria q a linked) q (by omega) (by omega)]
    cases reached : o.allows 1 with
    | true => cases o.forward <;> rfl
    | false =>
      rw [part_beyondCriterion_of_far (TraceOptions.allows_succ reached)]
      cases o.forward <;> rfl
  have all : (TraceOptions.forward {} && TraceOptions.allows {} 1) = true := rfl
  rw [part_fromRequirement, part_fromRequirement, if_pos all, near_append, near_self own,
    near_flatMap, List.flatMap_congr each]
  cases o.forward && o.allows 1 with
  | true => rfl
  | false => exact congrArg (_ ++ ·) (List.flatMap_eq_nil_iff.mpr fun _ _ => rfl)

theorem part_ite_append {c d : TraceChain} {further : Bool}
    (single : c.requirement = none ∨ d.requirement = none) :
    (if further then c.append d else c).part k = c.part k ++ if further then d.part k else [] := by
  cases further with
  | true => exact part_append single
  | false => exact (List.append_nil _).symm

/-- Where options go further, a chain is near if its own nodes are and those further on. -/
theorem near_ite_append {own own' beyond beyond' : TraceChain} {further : Bool}
    (single : own.requirement = none ∨ beyond.requirement = none)
    (single' : own'.requirement = none ∨ beyond'.requirement = none)
    (self : near o s k (own.part k) = own'.part k)
    (behind : near o s k (beyond.part k) = if further then beyond'.part k else []) :
    near o s k ((own.append beyond).part k) =
      (if further then own'.append beyond' else own').part k := by
  rw [part_append single, near_append, self, behind, part_ite_append single']

theorem near_fromCriterion (shaped : i.Shaped) (kind : Identifier.kind q = .criterion) :
    near o 1 k ((fromCriterion i {} q).part k) = (fromCriterion i o q).part k := by
  have self : near o 1 k (part
        { query := q
          criteria := (specNode? i .criterion q).toList
          requirement := requirementOf? i q } k) =
      part
        { query := q
          criteria := (specNode? i .criterion q).toList
          requirement := if o.reverse && o.allows 1 then requirementOf? i q else none } k := by
    cases k with
    | requirement =>
      rw [part, near_back 0 (fun _ _ => rfl) (by omega), part, apply_ite Option.toList]
      rfl
    | criterion => exact near_self fun _ _ => rfl
    | _ => rfl
  rw [fromCriterion, fromCriterion]
  exact near_ite_append (.inr (requirement_beyondCriterion q)) (.inr (requirement_beyondCriterion q))
    self (near_beyondCriterion shaped kind q (by omega) (by omega))

theorem near_fromProperty (kind : Identifier.kind q = .property) :
    near o 2 k ((fromProperty i {} q).part k) = (fromProperty i o q).part k := by
  have self : near o 2 k (part
        { query := q
          properties := (specNode? i .property q).toList
          tests := nodesAt .test q (i.propertyTestsOf.get q) } k) =
      part
        { query := q
          properties := (specNode? i .property q).toList
          tests := if o.forward && o.allows 1 then nodesAt .test q (i.propertyTestsOf.get q)
            else [] } k := by
    cases k with
    | property => exact near_self fun _ _ => rfl
    | test =>
      have behind := level_nodesAt (k := .test) (.inr rfl) .test q (i.propertyTestsOf.get q)
      rw [kind] at behind
      exact near_onward 3 behind (by omega)
    | _ => rfl
  rw [fromProperty, fromProperty]
  exact near_ite_append (.inl rfl) (.inl rfl) self (near_linkedCriteria q (i.validatedBy.get q))

theorem near_fromComponent (kind : Identifier.kind q = .component) :
    near o 2 k ((fromComponent i {} q).part k) = (fromComponent i o q).part k := by
  have self : near o 2 k (part
        { query := q
          components := (specNode? i .component q).toList
          implementations := componentCode i q } k) =
      part
        { query := q
          components := (specNode? i .component q).toList
          implementations := if o.forward && o.allows 1 then componentCode i q else [] } k := by
    cases k with
    | component => exact near_self fun _ _ => rfl
    | implementation =>
      have behind := level_nodesAt (k := .implementation) (.inl rfl) .component q
        (i.componentCodeOf.get q)
      rw [kind] at behind
      exact near_onward 3 behind (by omega)
    | _ => rfl
  rw [fromComponent, fromComponent]
  exact near_ite_append (.inl rfl) (.inl rfl) self (near_linkedCriteria q (i.implementedBy.get q))

/-- What a trace gathers is, of all that it could, what is near enough. -/
theorem near_gathered (shaped : i.Shaped) (o : TraceOptions) (q : Text) (k : NodeKind) :
    near o (Identifier.kind q).level k ((gathered i {} q).part k) = (gathered i o q).part k := by
  unfold gathered
  split
  · next kind =>
    rw [kind]
    exact near_fromRequirement shaped
  · next kind =>
    rw [kind]
    exact near_fromCriterion shaped kind
  · next kind =>
    rw [kind]
    exact near_fromProperty kind
  · next kind =>
    rw [kind]
    exact near_fromComponent kind

/-! ## Doubles -/

/-- Doubles may be dropped before nodes are left out by their identifiers and parts, or behind. -/
theorem distinct_filter {p : TraceNode → Bool} (told : ∀ m n, m.id = n.id → p m = p n)
    (nodes : List TraceNode) : distinct (nodes.filter p) = (distinct nodes).filter p := by
  induction nodes with
  | nil => rfl
  | cons m rest ih =>
    rw [distinct]
    cases kept : p m with
    | true =>
      rw [List.filter_cons_of_pos kept, List.filter_cons_of_pos kept, distinct, ih,
        List.filter_filter, List.filter_filter]
      simp only [Bool.and_comm]
    | false =>
      rw [List.filter_cons_of_neg (by simp [kept]), List.filter_cons_of_neg (by simp [kept]), ih,
        List.filter_filter]
      refine List.filter_congr fun n _ => ?_
      cases same : sameNode m n with
      | false => simp
      | true =>
        simp only [sameNode, Bool.and_eq_true, decide_eq_true_eq] at same
        simp [← told m n same.1, kept]

/-- The trace of an identifier is its whole trace, part by part, without what the options leave out. -/
theorem part_resolve (shaped : i.Shaped) (o : TraceOptions) (q : Text) (k : NodeKind) :
    (resolve i o q).part k = if omits o k then [] else ((resolve i {} q).part k).filter fun n =>
      o.inScope n.id && o.reaches (Identifier.kind q).level (levelIn k n) := by
  have shown : omits {} k = false := by cases k <;> rfl
  have told (m n : TraceNode) (same : m.id = n.id) :
      (o.inScope m.id && o.reaches (Identifier.kind q).level (levelIn k m)) =
        (o.inScope n.id && o.reaches (Identifier.kind q).level (levelIn k n)) := by
    cases k <;> simp [levelIn, same]
  rw [resolve_eq, part_restrict, resolve_eq, part_restrict, shown, if_neg Bool.false_ne_true,
    inScope_default, ← distinct_filter told, inScope, ← near_gathered shaped, near,
    List.filter_filter]

theorem query_gathered (i : TraceIndex) (o : TraceOptions) (q : Text) : (gathered i o q).query = q := by
  have joined (c : TraceChain) (more : List TraceChain) : (more.foldl append c).query = c.query := by
    induction more generalizing c with
    | nil => rfl
    | cons d rest ih => exact ih (c.append d)
  unfold gathered
  split
  · rw [fromRequirement]
    split
    · exact joined _ _
    · rfl
  · rw [fromCriterion]
    split <;> rfl
  · rw [fromProperty]
    split <;> rfl
  · rw [fromComponent]
    split <;> rfl

/-- A chain is known by its query and its parts. -/
theorem eq_of_part {c d : TraceChain} (query : c.query = d.query) (same : ∀ k, c.part k = d.part k) :
    c = d := by
  have requirement : c.requirement = d.requirement := by
    have listed : c.requirement.toList = d.requirement.toList := same .requirement
    exact Option.ext fun n => by rw [← Option.mem_toList, listed, Option.mem_toList]
  cases c
  cases d
  simp only [TraceChain.mk.injEq]
  exact ⟨query, requirement, same .criterion, same .component, same .implementation, same .test,
    same .property⟩

/-- A narrower scope, and parts left out, do not change what else is shown. -/
theorem part_resolve_of_all (shaped : i.Shaped) (o : TraceOptions) (q : Text) (k : NodeKind) :
    (resolve i o q).part k = if omits o k then [] else
      ((resolve i { direction := o.direction, depth := o.depth } q).part k).filter fun n =>
        o.inScope n.id := by
  have shown : omits { direction := o.direction, depth := o.depth } k = false := by cases k <;> rfl
  rw [part_resolve shaped, part_resolve shaped { direction := o.direction, depth := o.depth }, shown,
    if_neg Bool.false_ne_true, List.filter_filter]
  rfl

theorem sublist_resolve (shaped : i.Shaped) {depth : Option Int}
    (deeper : ∀ e ∈ depth, ∃ d ∈ o.depth, d ≤ e) (q : Text) (k : NodeKind) :
    ((resolve i o q).part k).Sublist ((resolve i { o with depth } q).part k) := by
  have same : omits { o with depth } k = omits o k := by cases k <;> rfl
  rw [part_resolve shaped, part_resolve shaped { o with depth }, same]
  split
  · exact List.Sublist.refl []
  · refine List.monotone_filter_right _ fun n near => ?_
    rw [Bool.and_eq_true] at near ⊢
    exact ⟨near.1, TraceOptions.reaches_of_deeper deeper near.2⟩

theorem mem_resolve_both_iff (shaped : i.Shaped) (o : TraceOptions) (q : Text) (k : NodeKind)
    (n : TraceNode) : n ∈ (resolve i { o with direction := .both } q).part k ↔
      n ∈ (resolve i { o with direction := .forward } q).part k ∨
        n ∈ (resolve i { o with direction := .reverse } q).part k := by
  have same (direction : Direction) : omits { o with direction } k = omits o k := by cases k <;> rfl
  have scope (direction : Direction) (id : Text) :
      TraceOptions.inScope { o with direction } id = o.inScope id := rfl
  simp only [part_resolve shaped { o with direction := _ }, same, scope, TraceOptions.reaches_both]
  split
  · simp
  · simp only [List.mem_filter, Bool.and_eq_true, Bool.or_eq_true]
    rw [← and_or_left, ← and_or_left]

/-- Options are filters. A scope keeps the nodes of each part whose identifier starts with it, and a
trace without code or without tests has these parts empty; with more depth there are more nodes between
the same ones in the same order, and the requirement stays; and in both directions there are the nodes of
either direction. -/
theorem resolve_filters {documents : List Document} (parsed : ∀ d ∈ documents, d.Parsed)
    (markers : List Marker) (q : Text) (o : TraceOptions) :
    let i := TraceIndex.build (.ofDocuments documents) markers
    let c := resolve i { direction := o.direction, depth := o.depth } q
    resolve i o q =
      { query := q
        requirement := c.requirement.filter fun n => o.inScope n.id
        criteria := c.criteria.filter fun n => o.inScope n.id
        components := c.components.filter fun n => o.inScope n.id
        implementations := if o.noCode then [] else c.implementations.filter fun n => o.inScope n.id
        tests := if o.noTests then [] else c.tests.filter fun n => o.inScope n.id
        properties := if o.noTests then [] else c.properties.filter fun n => o.inScope n.id } ∧
      (∀ depth, (∀ e ∈ depth, ∃ d ∈ o.depth, d ≤ e) →
        (∀ k, ((resolve i o q).part k).Sublist ((resolve i { o with depth } q).part k)) ∧
        ∀ n, (resolve i o q).requirement = some n →
          (resolve i { o with depth } q).requirement = some n) ∧
      ∀ k n, n ∈ (resolve i { o with direction := .both } q).part k ↔
        n ∈ (resolve i { o with direction := .forward } q).part k ∨
          n ∈ (resolve i { o with direction := .reverse } q).part k := by
  intro i c
  have shaped : i.Shaped := shaped_build parsed markers
  refine ⟨?_, fun depth deeper => ⟨sublist_resolve shaped deeper q, fun n kept => ?_⟩,
    mem_resolve_both_iff shaped o q⟩
  · refine eq_of_part (query_gathered i o q) fun k => ?_
    rw [part_resolve_of_all shaped]
    cases k with
    | requirement => exact Option.toList_filter.symm
    | _ => rfl
  · have shown : n ∈ (resolve i o q).part .requirement := Option.mem_toList.mpr kept
    exact Option.mem_toList.mp ((sublist_resolve shaped deeper q .requirement).subset shown)

/-- Two criteria that one component implements. -/
def sharedSpec : Document :=
  Document.read ["IMPLEMENTS:"] "x.md"
    "### X-1: Reading\n- X-1_AC-1 Reads\n- X-1_AC-2 Closes\n### X-Loader\nIMPLEMENTS: X-1_AC-1, X-1_AC-2"

/-- Two steps from a requirement there is the code of its criteria, and a third one leads between them
to the code of their component, which is listed once. -/
theorem resolve_filters_shared :
    let markers : List Marker :=
      [⟨.implementation, "X-1_AC-1", "x.py", 3, 0, 8⟩, ⟨.component, "X-Loader", "x.py", 1, 0, 8⟩,
        ⟨.implementation, "X-1_AC-2", "x.py", 5, 0, 8⟩, ⟨.test, "X-1_AC-1", "x.py", 9, 0, 8⟩]
    let i := TraceIndex.build (.ofDocuments [sharedSpec]) markers
    let o : TraceOptions := { depth := some 2, scope := some "X-1", noTests := true }
    let c := resolve i { direction := o.direction, depth := o.depth } "X-1"
    (∀ d ∈ [sharedSpec], d.Parsed) ∧
      (resolve i o "X-1").implementations = [⟨"X-1_AC-1", .implementation, ⟨"x.py", 3⟩⟩,
        ⟨"X-1_AC-2", .implementation, ⟨"x.py", 5⟩⟩] ∧
      (resolve i {} "X-1").implementations = [⟨"X-1_AC-1", .implementation, ⟨"x.py", 3⟩⟩,
        ⟨"X-Loader", .component, ⟨"x.py", 1⟩⟩, ⟨"X-1_AC-2", .implementation, ⟨"x.py", 5⟩⟩] ∧
      resolve i o "X-1" =
        { query := "X-1"
          requirement := c.requirement.filter fun n => o.inScope n.id
          criteria := c.criteria.filter fun n => o.inScope n.id
          components := c.components.filter fun n => o.inScope n.id
          implementations := c.implementations.filter fun n => o.inScope n.id
          tests := []
          properties := [] } ∧
      (∀ k, ((resolve i o "X-1").part k).Sublist ((resolve i { o with depth := none } "X-1").part k)) ∧
      (∀ n, (resolve i o "X-1").requirement = some n →
        (resolve i { o with depth := none } "X-1").requirement = some n) ∧
      ∀ k n, n ∈ (resolve i { o with direction := .both } "X-1").part k ↔
        n ∈ (resolve i { o with direction := .forward } "X-1").part k ∨
          n ∈ (resolve i { o with direction := .reverse } "X-1").part k := by
  intro markers i o c
  have parsed : ∀ d ∈ [sharedSpec], d.Parsed := List.forall_mem_singleton.mpr (Document.parsed_read _ _ _)
  obtain ⟨narrowed, deeper, both⟩ := resolve_filters parsed markers "X-1" o
  obtain ⟨shown, kept⟩ := deeper none nofun
  exact ⟨parsed, by decide +kernel, by decide +kernel, narrowed, shown, kept, both⟩

end TraceChain

end Traceability
