import Traceability.Trace.Chain

/-!
# Parts of a trace chain

A chain has one part for each kind of node. Chains of which one at most has a requirement are joined part
by part; restricting a chain leaves nothing in a part that was not there, and without a restriction
drops only what stands there twice.
-/
namespace Traceability.TraceChain

/-- The nodes of a chain that stand in one of its parts. -/
def part (c : TraceChain) : NodeKind → List TraceNode
  | .requirement => c.requirement.toList
  | .criterion => c.criteria
  | .component => c.components
  | .property => c.properties
  | .implementation => c.implementations
  | .test => c.tests

variable {a b c : TraceChain} {k : NodeKind} {n : TraceNode}

theorem mem_nodes_iff : n ∈ c.nodes ↔ ∃ k, n ∈ c.part k := by
  simp only [nodes, List.mem_append]
  constructor
  · intro member
    rcases member with ((((h | h) | h) | h) | h) | h
    · exact ⟨.requirement, h⟩
    · exact ⟨.criterion, h⟩
    · exact ⟨.component, h⟩
    · exact ⟨.property, h⟩
    · exact ⟨.implementation, h⟩
    · exact ⟨.test, h⟩
  · intro member
    obtain ⟨k, member⟩ := member
    cases k <;> simp only [part] at member <;> simp [member]

theorem part_append (single : a.requirement = none ∨ b.requirement = none) :
    (a.append b).part k = a.part k ++ b.part k := by
  cases k with
  | requirement =>
    rcases single with first | second
    · simp [part, append, first]
    · simp [part, append, second]
  | _ => rfl

theorem part_foldl_append {chains : List TraceChain} (plain : ∀ b ∈ chains, b.requirement = none) :
    (chains.foldl append a).part k = a.part k ++ chains.flatMap (·.part k) := by
  induction chains generalizing a with
  | nil => simp
  | cons b rest ih =>
    rw [List.foldl_cons, ih fun c member => plain c (List.mem_cons_of_mem _ member),
      part_append (.inr (plain b List.mem_cons_self)), List.flatMap_cons, List.append_assoc]

theorem part_concat {query : Text} {chains : List TraceChain}
    (plain : ∀ b ∈ chains, b.requirement = none) :
    (concat query (a :: chains)).part k = a.part k ++ chains.flatMap (·.part k) := by
  rw [concat, List.foldl_cons, part_foldl_append plain, part_append (.inl rfl)]
  cases k <;> rfl

/-! ## Restricting -/

/-- Whether a part of a chain is left out. -/
def omits (o : TraceOptions) : NodeKind → Bool
  | .implementation => o.noCode
  | .test | .property => o.noTests
  | _ => false

theorem part_restrict (o : TraceOptions) (c : TraceChain) (k : NodeKind) :
    (restrict o c).part k = if omits o k then [] else inScope o (c.part k) := by
  cases k with
  | requirement =>
    cases found : c.requirement with
    | none => simp [part, restrict, omits, inScope, found, distinct]
    | some n => by_cases inside : o.inScope n.id <;>
        simp [part, restrict, omits, inScope, found, distinct, Option.filter, inside]
  | _ => rfl

theorem inScope_default (nodes : List TraceNode) : inScope {} nodes = distinct nodes := by
  rw [inScope, List.filter_eq_self.mpr]
  intro n _
  rfl

theorem mem_of_mem_distinct {nodes : List TraceNode} (member : n ∈ distinct nodes) : n ∈ nodes := by
  induction nodes with
  | nil => exact member
  | cons m rest ih =>
    rcases List.mem_cons.mp member with rfl | later
    · exact List.mem_cons_self
    · exact List.mem_cons_of_mem _ (ih (List.mem_filter.mp later).1)

/-- Where the identifier of a node tells its kind, no node is lost with its doubles. -/
theorem mem_distinct_iff {nodes : List TraceNode} {kindOf : Text → NodeKind}
    (told : ∀ n ∈ nodes, n.kind = kindOf n.id) : n ∈ distinct nodes ↔ n ∈ nodes := by
  refine ⟨mem_of_mem_distinct, fun member => ?_⟩
  induction nodes with
  | nil => exact member
  | cons m rest ih =>
    by_cases same : sameNode m n = true
    · simp only [sameNode, Bool.and_eq_true, decide_eq_true_eq] at same
      have kinds : m.kind = n.kind := by
        rw [told m List.mem_cons_self, told n member, same.1]
      have equal : n = m := by
        cases m
        cases n
        simp_all
      exact equal ▸ List.mem_cons_self
    · rcases List.mem_cons.mp member with rfl | later
      · exact List.mem_cons_self
      · have kept := ih (fun x inside => told x (List.mem_cons_of_mem _ inside)) later
        exact List.mem_cons_of_mem _ (List.mem_filter.mpr ⟨kept, by simpa using same⟩)

theorem mem_part_of_restrict {o : TraceOptions} (member : n ∈ (restrict o c).part k) :
    n ∈ c.part k := by
  rw [part_restrict] at member
  split at member
  · cases member
  · exact (List.mem_filter.mp (mem_of_mem_distinct member)).1

/-- Nothing is lost without a scope, with code and with tests. -/
theorem mem_part_restrict_iff {direction : Direction} {depth : Option Int}
    {kindOf : Text → NodeKind} (told : ∀ n ∈ c.part k, n.kind = kindOf n.id) :
    n ∈ (restrict { direction, depth } c).part k ↔ n ∈ c.part k := by
  have kept : omits { direction, depth } k = false := by cases k <;> rfl
  have all : (c.part k).filter (fun n => TraceOptions.inScope { direction, depth } n.id) =
      c.part k := by
    rw [List.filter_eq_self]
    intro n _
    rfl
  rw [part_restrict, kept, if_neg Bool.false_ne_true, inScope, all, mem_distinct_iff told]

end Traceability.TraceChain
