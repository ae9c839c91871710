import Mathlib.Data.List.Induction
import Traceability.Excerpt.Assembly
import Traceability.Proofs.Excerpt.Bounds

/-!
# Assembled excerpts

The excerpts of a trace stand by priority, and those of one priority in the order in which the chains
list their nodes. Each shows the lines that it names, no two show the same ones, and what a node is
at can be seen in one of them: the node adds it, or an earlier one has done so.
-/
namespace Traceability

namespace Excerpt

variable {read : Text → Option (List Text)} {context : ContextLines} {e e' : Excerpt}
  {nodes before : List (ExcerptKind × TraceNode)} {x : ExcerptKind × TraceNode} {lines : List Text}

/-! ## First ones -/

/-- A list without those that share a key with an earlier one, with one more at its end. -/
theorem snoc_of_firsts {α κ : Type} [DecidableEq κ] {f : List α → List α} (key : α → κ)
    (nil : f [] = []) (cons : ∀ a as, f (a :: as) = a :: (f as).filter fun b => key b ≠ key a)
    (as : List α) (a : α) : (key a ∈ as.map key → f (as ++ [a]) = f as) ∧
      (key a ∉ as.map key → f (as ++ [a]) = f as ++ [a]) := by
  induction as with
  | nil => simp [nil, cons]
  | cons b as ih =>
    rw [List.cons_append, cons, cons, List.map_cons, List.mem_cons]
    by_cases seen : key a ∈ as.map key
    · exact ⟨fun _ => by rw [ih.1 seen], fun new => absurd (.inr seen) new⟩
    · rw [ih.2 seen, List.filter_append]
      exact ⟨fun old => by simp [old.resolve_right seen], fun new => by simp [mt .inl new]⟩

/-- What a node is shown as: the kind, the file and the identifier. -/
def subject (x : ExcerptKind × TraceNode) : ExcerptKind × Text × Text :=
  (x.1, x.2.location.path, x.2.id)

/-- Which lines of which file an excerpt shows. -/
def range (e : Excerpt) : Text × Int × Int := (e.path, e.first, e.last)

theorem distinctNodes_snoc (nodes : List (ExcerptKind × TraceNode)) (x : ExcerptKind × TraceNode) :
    (subject x ∈ nodes.map subject → distinctNodes (nodes ++ [x]) = distinctNodes nodes) ∧
      (subject x ∉ nodes.map subject →
        distinctNodes (nodes ++ [x]) = distinctNodes nodes ++ [x]) := by
  refine snoc_of_firsts (f := distinctNodes) subject rfl (fun a as => ?_) nodes x
  rw [distinctNodes]
  refine congrArg _ (List.filter_congr fun b _ => ?_)
  simp [subject, Bool.or_assoc]

theorem distinct_snoc (es : List Excerpt) (e : Excerpt) :
    (e.range ∈ es.map range → distinct (es ++ [e]) = distinct es) ∧
      (e.range ∉ es.map range → distinct (es ++ [e]) = distinct es ++ [e]) := by
  refine snoc_of_firsts (f := distinct) range rfl (fun a as => ?_) es e
  rw [distinct]
  refine congrArg _ (List.filter_congr fun b _ => ?_)
  simp [sameLines, range, Bool.or_assoc, eq_comm]

theorem mem_map_range_distinct {es : List Excerpt} {r : Text × Int × Int} :
    r ∈ (distinct es).map range ↔ r ∈ es.map range := by
  induction es using List.reverseRecOn with
  | nil => rfl
  | append_singleton es e ih =>
    rw [List.map_append, List.mem_append, List.map_singleton, List.mem_singleton]
    by_cases known : e.range ∈ es.map range
    · rw [(distinct_snoc es e).1 known, ih]
      exact ⟨.inl, Or.rec id fun same => same ▸ known⟩
    · rw [(distinct_snoc es e).2 known, List.map_append, List.mem_append, ih, List.map_singleton,
        List.mem_singleton]

/-! ## Excerpts of the nodes -/

/-- The excerpts that a list of nodes leads to, in the order of the nodes. -/
def shown (read : Text → Option (List Text)) (context : ContextLines)
    (nodes : List (ExcerptKind × TraceNode)) : List Excerpt :=
  distinct ((distinctNodes nodes).filterMap fun x => ofNode? read context x.1 x.2)

/-- A node behind others adds an excerpt: no earlier node is shown as the same, and no earlier one
that counts has led to the same lines. -/
structure Adds (read : Text → Option (List Text)) (context : ContextLines)
    (before : List (ExcerptKind × TraceNode)) (x : ExcerptKind × TraceNode) (e : Excerpt) : Prop where
  fresh : subject x ∉ before.map subject
  gives : ofNode? read context x.1 x.2 = some e
  unseen : ∀ b y a e', before = b ++ y :: a → subject y ∉ b.map subject →
    ofNode? read context y.1 y.2 = some e' → e'.range ≠ e.range

/-- One more node adds its excerpt when the node is not shown yet, can be read, and leads to lines
that are not shown yet. -/
theorem shown_snoc (read : Text → Option (List Text)) (context : ContextLines)
    (nodes : List (ExcerptKind × TraceNode)) (x : ExcerptKind × TraceNode) :
    (shown read context (nodes ++ [x]) = shown read context nodes ∧
      (subject x ∉ nodes.map subject → ∀ e, ofNode? read context x.1 x.2 = some e →
        e.range ∈ (shown read context nodes).map range)) ∨
    ∃ e, shown read context (nodes ++ [x]) = shown read context nodes ++ [e] ∧
      subject x ∉ nodes.map subject ∧ ofNode? read context x.1 x.2 = some e ∧
      e.range ∉ (shown read context nodes).map range := by
  rw [shown, shown]
  by_cases seen : subject x ∈ nodes.map subject
  · rw [(distinctNodes_snoc nodes x).1 seen]
    exact .inl ⟨rfl, fun fresh => absurd seen fresh⟩
  rw [(distinctNodes_snoc nodes x).2 seen, List.filterMap_append]
  cases gives : ofNode? read context x.1 x.2 with
  | none => exact .inl ⟨by simp [gives], fun _ e found => by cases found⟩
  | some e =>
    simp only [List.filterMap_cons, gives, List.filterMap_nil, mem_map_range_distinct]
    by_cases known : e.range ∈ ((distinctNodes nodes).filterMap fun x =>
        ofNode? read context x.1 x.2).map range
    · refine .inl ⟨(distinct_snoc _ e).1 known, fun _ e' found => ?_⟩
      cases found
      exact known
    · exact .inr ⟨e, (distinct_snoc _ e).2 known, seen, rfl, known⟩

theorem shown_append (before after : List (ExcerptKind × TraceNode)) :
    shown read context before <+: shown read context (before ++ after) := by
  induction after using List.reverseRecOn with
  | nil => simp
  | append_singleton after x ih =>
    rw [← List.append_assoc]
    obtain ⟨same, -⟩ | ⟨e, more, -⟩ := shown_snoc read context (before ++ after) x
    · rwa [same]
    · rw [more]
      exact ih.trans (List.prefix_append _ _)

/-- The lines of a node that counts are shown. -/
theorem mem_map_range_shown (after : List (ExcerptKind × TraceNode))
    (fresh : subject x ∉ before.map subject) (gives : ofNode? read context x.1 x.2 = some e) :
    e.range ∈ (shown read context (before ++ x :: after)).map range := by
  rw [List.append_cons]
  refine ((shown_append (before ++ [x]) after).map range).subset ?_
  obtain ⟨same, known⟩ | ⟨e', more, -, gives', -⟩ := shown_snoc read context before x
  · rw [same]
    exact known fresh e gives
  · cases gives.symm.trans gives'
    rw [more]
    simp

/-- Each excerpt comes from a node that adds it to those of the nodes before. -/
theorem exists_adds {earlier later : List Excerpt}
    (split : shown read context nodes = earlier ++ e :: later) :
    ∃ before x after, nodes = before ++ x :: after ∧ shown read context before = earlier ∧
      Adds read context before x e := by
  induction nodes using List.reverseRecOn generalizing later with
  | nil => simp [shown, distinctNodes, distinct] at split
  | append_singleton nodes x ih =>
    -- The excerpt is one of those of the nodes before `x`, or the one that `x` adds.
    have among {later : List Excerpt} (split : shown read context nodes = earlier ++ e :: later) :
        ∃ before y after, nodes ++ [x] = before ++ y :: after ∧
          shown read context before = earlier ∧ Adds read context before y e := by
      obtain ⟨before, y, after, rfl, same, adds⟩ := ih split
      exact ⟨before, y, after ++ [x], by simp, same, adds⟩
    obtain ⟨same, -⟩ | ⟨new, more, fresh, gives, unknown⟩ := shown_snoc read context nodes x
    · exact among (same.symm.trans split)
    · rw [more] at split
      cases later using List.reverseRecOn with
      | nil =>
        obtain ⟨same, one⟩ := List.append_inj' split rfl
        cases one
        refine ⟨nodes, x, [], rfl, same, fresh, gives, fun b y a e' cut fresh' gives' again => ?_⟩
        rw [cut, ← again] at unknown
        exact unknown (mem_map_range_shown a fresh' gives')
      | append_singleton later last =>
        rw [← List.cons_append, ← List.append_assoc] at split
        exact among (List.append_inj' split rfl).1

theorem pairwise_shown (read : Text → Option (List Text)) (context : ContextLines)
    (nodes : List (ExcerptKind × TraceNode)) :
    (shown read context nodes).Pairwise fun e e' => e.range ≠ e'.range := by
  induction nodes using List.reverseRecOn with
  | nil => exact .nil
  | append_singleton nodes x ih =>
    obtain ⟨same, -⟩ | ⟨e, more, -, -, unknown⟩ := shown_snoc read context nodes x
    · rwa [same]
    · rw [more]
      refine List.pairwise_append.mpr ⟨ih, List.pairwise_singleton _ _, fun e' member d one => ?_⟩
      cases List.mem_singleton.mp one
      exact fun same => unknown (same ▸ List.mem_map_of_mem member)

/-! ## Faithful excerpts -/

/-- An excerpt that is exactly some lines of its file, counted from one. -/
def Faithful (read : Text → Option (List Text)) (e : Excerpt) : Prop :=
  ∃ lines, read e.path = some lines ∧ 1 ≤ e.first ∧ e.first ≤ e.last ∧ e.last ≤ lines.length ∧
    e.content = Text.join ['\n'] ((lines.take e.last.toNat).drop (e.first.toNat - 1))

theorem kind_ne_task_of_mem {chains : List TraceChain} (member : x ∈ chains.flatMap nodesByKind) :
    x.1 ≠ .task := by
  obtain ⟨c, -, member⟩ := List.mem_flatMap.mp member
  simp only [nodesByKind, List.mem_append, List.mem_map] at member
  obtain ((⟨_, -, rfl⟩ | ⟨_, -, rfl⟩) | ⟨_, -, rfl⟩) | ⟨_, -, rfl⟩ := member <;>
    exact ExcerptKind.noConfusion

theorem ofNode?_eq_some_iff {kind : ExcerptKind} {n : TraceNode} :
    ofNode? read context kind n = some e ↔ ∃ lines, read n.location.path = some lines ∧
      lines ≠ [] ∧
        ofSpan kind n.location.path lines (spanOf context lines kind n.location.line) = e := by
  rw [ofNode?]
  split
  · next none => simp [none]
  · next empty => simp [empty]
  · next lines nonempty found =>
    rw [Option.some.injEq, found]
    constructor
    · exact fun same => ⟨lines, rfl, nonempty, same⟩
    · rintro ⟨_, again, -, same⟩
      cases again
      exact same

theorem within_spanOf (back : 0 ≤ context.before) (ahead : 0 ≤ context.after) (nonempty : lines ≠ [])
    (kind : ExcerptKind) (line : Nat) :
    (spanOf context lines kind line).Within lines.length := by
  rw [spanOf]
  split
  · exact (LineSpan.ofCode_inside nonempty line back ahead).1
  · exact LineSpan.within_ofSection nonempty line

theorem sliceBetween_of_within {s : LineSpan} (inside : s.Within lines.length) :
    sliceBetween s.first (s.last + 1) lines =
      (lines.take (s.last + 1).toNat).drop ((s.first + 1).toNat - 1) := by
  obtain ⟨nonneg, ordered, -⟩ := inside
  have first : ((s.first + 1).toNat - 1) = s.first.toNat := by omega
  rw [sliceBetween, first]
  simp only [Int.not_lt.mpr nonneg, if_false, show ¬ s.last + 1 < 0 by omega]

theorem faithful_of_ofNode? (back : 0 ≤ context.before) (ahead : 0 ≤ context.after)
    {kind : ExcerptKind} {n : TraceNode} (gives : ofNode? read context kind n = some e) :
    Faithful read e := by
  obtain ⟨lines, found, nonempty, rfl⟩ := ofNode?_eq_some_iff.mp gives
  have inside := within_spanOf back ahead nonempty kind n.location.line
  refine ⟨lines, found, ?_, ?_, ?_, congrArg _ (sliceBetween_of_within inside)⟩
  · exact Int.add_le_add_right inside.first_nonneg 1
  · exact Int.add_le_add_right inside.first_le_last 1
  · exact inside.last_lt

/-- The line of a node, or the nearest one of the file, can be seen in the excerpt of the node. -/
theorem holds_spanOf (back : 0 ≤ context.before) (ahead : 0 ≤ context.after) (nonempty : lines ≠ [])
    {kind : ExcerptKind} {line : Nat} (visible : kind.isCode = true ∨
      ∃ t, lines[min (max line 1) lines.length - 1]? = some t ∧ Text.allBlank t = false) :
    (spanOf context lines kind line).Holds (min (max line 1) lines.length - 1) := by
  have here : min (max line 1) lines.length - 1 = LineSpan.anchor lines.length line := by
    rw [LineSpan.anchor]
    omega
  rw [here] at visible ⊢
  rw [spanOf]
  split
  · exact (LineSpan.ofCode_inside nonempty line back ahead).2
  · next spec =>
    obtain ⟨t, found, filled⟩ := visible.resolve_left spec
    exact LineSpan.holds_ofSection nonempty found filled

/-! ## The assembled list -/

theorem priority_injective {kind kind' : ExcerptKind} (same : kind.priority = kind'.priority) :
    kind = kind' := by
  cases kind <;> cases kind' <;> first | rfl | cases same

theorem kind_of_mem_ofTask? {task : Option Text}
    (member : e ∈ (task.bind (ofTask? read)).toList) : e.kind = .task := by
  obtain ⟨path, -, found⟩ := Option.bind_eq_some_iff.mp (Option.mem_toList.mp member)
  obtain ⟨lines, -, rfl⟩ := Option.map_eq_some_iff.mp found
  rfl

theorem kind_of_ofNode? {kind : ExcerptKind} {n : TraceNode}
    (gives : ofNode? read context kind n = some e) : e.kind = kind := by
  obtain ⟨lines, -, -, rfl⟩ := ofNode?_eq_some_iff.mp gives
  rfl

theorem exists_adds_of_mem (member : e ∈ shown read context nodes) :
    ∃ before x after, nodes = before ++ x :: after ∧ Adds read context before x e := by
  obtain ⟨earlier, later, split⟩ := List.append_of_mem member
  obtain ⟨before, x, after, split, -, adds⟩ := exists_adds split
  exact ⟨before, x, after, split, adds⟩

theorem kind_ne_task_of_mem_shown {chains : List TraceChain}
    (member : e ∈ shown read context (chains.flatMap nodesByKind)) : e.kind ≠ .task := by
  obtain ⟨before, x, after, split, adds⟩ := exists_adds_of_mem member
  rw [kind_of_ofNode? adds.gives]
  exact kind_ne_task_of_mem (split ▸ List.mem_append_right _ List.mem_cons_self)

/-- The excerpts of a kind stand in the order of their nodes. -/
theorem filter_kind_assemble (task : Option Text) (chains : List TraceChain) (kind : ExcerptKind) :
    (assemble read context task chains).filter (·.kind = kind) =
      (task.bind (ofTask? read)).toList.filter (·.kind = kind) ++
        (shown read context (chains.flatMap nodesByKind)).filter (·.kind = kind) := by
  have alike (a b : Excerpt) (of : decide (a.kind = kind) = true)
      (of' : decide (b.kind = kind) = true) :
      decide (a.kind.priority ≤ b.kind.priority) = true := by
    rw [of_decide_eq_true of, of_decide_eq_true of']
    exact decide_eq_true (Nat.le_refl _)
  rw [assemble, filter_sortBy alike, List.filter_append]
  rfl

theorem filter_other_assemble (task : Option Text) (chains : List TraceChain) {kind : ExcerptKind}
    (other : kind ≠ .task) : (assemble read context task chains).filter (·.kind = kind) =
      (shown read context (chains.flatMap nodesByKind)).filter (·.kind = kind) := by
  have none : (task.bind (ofTask? read)).toList.filter (·.kind = kind) = [] :=
    List.filter_eq_nil_iff.mpr fun a member of =>
      other ((of_decide_eq_true of).symm.trans (kind_of_mem_ofTask? member))
  rw [filter_kind_assemble, none, List.nil_append]

theorem filter_task_assemble (task : Option Text) (chains : List TraceChain) :
    (assemble read context task chains).filter (·.kind = .task) =
      (task.bind (ofTask? read)).toList := by
  have all : (task.bind (ofTask? read)).toList.filter (·.kind = .task) =
      (task.bind (ofTask? read)).toList :=
    List.filter_eq_self.mpr fun a member => decide_eq_true (kind_of_mem_ofTask? member)
  have none : (shown read context (chains.flatMap nodesByKind)).filter (·.kind = .task) = [] :=
    List.filter_eq_nil_iff.mpr fun a member of =>
      kind_ne_task_of_mem_shown member (of_decide_eq_true of)
  rw [filter_kind_assemble, all, none, List.append_nil]

theorem mem_assemble_iff {task : Option Text} {chains : List TraceChain} (other : e.kind ≠ .task) :
    e ∈ assemble read context task chains ↔
      e ∈ shown read context (chains.flatMap nodesByKind) := by
  rw [assemble, mem_sortBy, List.mem_append]
  exact or_iff_right fun member => other (kind_of_mem_ofTask? member)

/-- Two elements in a row of a list. -/
theorem append_of_pair_sublist {α : Type} {a b : α} {l : List α} (sub : [a, b].Sublist l) :
    ∃ earlier between later, l = earlier ++ a :: between ++ b :: later := by
  obtain ⟨l₁, l₂, rfl, first, second⟩ := List.cons_sublist_iff.mp sub
  obtain ⟨earlier, between, rfl⟩ := List.append_of_mem first
  obtain ⟨between', later, rfl⟩ := List.append_of_mem (List.singleton_sublist.mp second)
  exact ⟨earlier, between ++ between', later, by simp⟩

theorem pairwise_priority_assemble (task : Option Text) (chains : List TraceChain) :
    (assemble read context task chains).Pairwise fun e e' =>
      e.kind.priority ≤ e'.kind.priority := by
  refine (pairwise_sortBy (fun a b => ?_) (fun a b c le le' => ?_) _).imp of_decide_eq_true
  · exact (Nat.le_total _ _).imp decide_eq_true decide_eq_true
  · exact decide_eq_true (Nat.le_trans (of_decide_eq_true le) (of_decide_eq_true le'))

theorem pairwise_range_assemble (task : Option Text) (chains : List TraceChain) :
    ((assemble read context task chains).filter (·.kind ≠ .task)).Pairwise fun e e' =>
      e.range ≠ e'.range := by
  have none : (task.bind (ofTask? read)).toList.filter (·.kind ≠ .task) = [] :=
    List.filter_eq_nil_iff.mpr fun a member of =>
      of_decide_eq_true of (kind_of_mem_ofTask? member)
  have perm := (sortBy_perm (fun a b => decide (a.kind.priority ≤ b.kind.priority))
    ((task.bind (ofTask? read)).toList ++
      shown read context (chains.flatMap nodesByKind))).filter (·.kind ≠ .task)
  rw [List.filter_append, none, List.nil_append] at perm
  exact (perm.pairwise_iff fun apart => Ne.symm apart).mpr
    ((pairwise_shown read context _).sublist List.filter_sublist)

/-- Excerpts of one priority stand in the order of the nodes that add them. -/
theorem ordered_assemble {task : Option Text} {chains : List TraceChain}
    (inOrder : [e, e'].Sublist (assemble read context task chains)) (other : e.kind ≠ .task)
    (alike : e.kind.priority = e'.kind.priority) :
    ∃ before x between x' after,
      chains.flatMap nodesByKind = before ++ x :: between ++ x' :: after ∧
        Adds read context before x e ∧ Adds read context (before ++ x :: between) x' e' := by
  have both : [e, e'].filter (·.kind = e.kind) = [e, e'] := by simp [priority_injective alike]
  have kept := inOrder.filter (·.kind = e.kind)
  rw [both, filter_other_assemble task chains other] at kept
  obtain ⟨earlier, between, later, split⟩ :=
    append_of_pair_sublist (kept.trans List.filter_sublist)
  obtain ⟨before', x', after, nodes, same, adds'⟩ := exists_adds split
  obtain ⟨before, x, between, rfl, -, adds⟩ := exists_adds same
  exact ⟨before, x, between, x', after, nodes, adds, adds'⟩

/-- What is assembled stands by priority and then in the order of the nodes. All but the task are
exactly the lines that they name, none of them twice. Each node that counts has its lines shown, and
its own line is among them unless it is a blank line of a spec. -/
theorem assemble_faithful (back : 0 ≤ context.before) (ahead : 0 ≤ context.after)
    (read : Text → Option (List Text)) (task : Option Text) (chains : List TraceChain) :
    let nodes := chains.flatMap nodesByKind
    let excerpts := assemble read context task chains
    (excerpts.Pairwise fun e e' => e.kind.priority ≤ e'.kind.priority) ∧
    (∀ e e', [e, e'].Sublist excerpts → e.kind ≠ .task → e.kind.priority = e'.kind.priority →
      ∃ before x between x' after, nodes = before ++ x :: between ++ x' :: after ∧
        Adds read context before x e ∧ Adds read context (before ++ x :: between) x' e') ∧
    excerpts.filter (·.kind = .task) = (task.bind (ofTask? read)).toList ∧
    (∀ e ∈ excerpts, e.kind ≠ .task → Faithful read e) ∧
    ((excerpts.filter (·.kind ≠ .task)).Pairwise fun e e' => e.range ≠ e'.range) ∧
    ∀ before x after lines, nodes = before ++ x :: after → subject x ∉ before.map subject →
      read x.2.location.path = some lines → lines ≠ [] →
      let span := spanOf context lines x.1 x.2.location.line
      let line := min (max x.2.location.line 1) lines.length
      ∃ e ∈ excerpts, e.kind ≠ .task ∧
        e.range = (x.2.location.path, span.first + 1, span.last + 1) ∧
        ((x.1.isCode = true ∨
            ∃ t, lines[line - 1]? = some t ∧ Text.allBlank t = false) →
          e.first ≤ line ∧ line ≤ e.last) := by
  refine ⟨pairwise_priority_assemble task chains, fun e e' => ordered_assemble,
    filter_task_assemble task chains, fun e member other => ?_, pairwise_range_assemble task chains,
    fun before x after lines split fresh found nonempty => ?_⟩
  · obtain ⟨before, x, after, -, adds⟩ := exists_adds_of_mem ((mem_assemble_iff other).mp member)
    exact faithful_of_ofNode? back ahead adds.gives
  · have gives : ofNode? read context x.1 x.2 = some (ofSpan x.1 x.2.location.path lines
        (spanOf context lines x.1 x.2.location.line)) :=
      ofNode?_eq_some_iff.mpr ⟨lines, found, nonempty, rfl⟩
    have known := mem_map_range_shown after fresh gives
    rw [← split] at known
    obtain ⟨e, member, range⟩ := List.mem_map.mp known
    have other := kind_ne_task_of_mem_shown member
    refine ⟨e, (mem_assemble_iff other).mpr member, other, range, fun visible => ?_⟩
    obtain ⟨above, below⟩ := holds_spanOf back ahead nonempty visible
    obtain ⟨-, first, last⟩ : e.path = _ ∧ e.first = _ ∧ e.last = _ := by
      simpa only [Excerpt.range, ofSpan, Prod.mk.injEq] using range
    have := List.length_pos_iff.mpr nonempty
    rw [first, last]
    omega

/-- Two files: a spec with one heading, and a function with a decorator and a marker inside. -/
def twoFiles (path : Text) : Option (List Text) :=
  if path = "a.md".toList then some ["### X-1: T", "", "Text."]
  else if path = "x.py".toList then some ["@d", "def f():", "    # @spec-impl: X-1", "    pass", "f()"]
  else none

/-- A requirement with the one place that implements it. -/
def implemented : TraceChain :=
  { query := "X-1"
    requirement := some ⟨"X-1", .requirement, ⟨"a.md", 1⟩⟩
    implementations := [⟨"X-1", .implementation, ⟨"x.py", 3⟩⟩] }

/-- The whole function around the marker is shown, from its decorator on. -/
theorem assemble_implemented : (0 ≤ ({} : ContextLines).before ∧ 0 ≤ ({} : ContextLines).after) ∧
    ∃ e ∈ assemble twoFiles {} none [implemented], e.kind ≠ .task ∧
      e.range = ("x.py".toList, 1, 4) ∧ e.first ≤ 3 ∧ 3 ≤ e.last ∧ Faithful twoFiles e := by
  have context : 0 ≤ ({} : ContextLines).before ∧ 0 ≤ ({} : ContextLines).after := by decide
  obtain ⟨-, -, -, faithful, -, shows⟩ :=
    assemble_faithful context.1 context.2 twoFiles none [implemented]
  obtain ⟨e, member, other, range, visible⟩ := shows
    [(.requirement, ⟨"X-1", .requirement, ⟨"a.md", 1⟩⟩)]
    (.implementation, ⟨"X-1", .implementation, ⟨"x.py", 3⟩⟩) []
    ["@d", "def f():", "    # @spec-impl: X-1", "    pass", "f()"] rfl (by decide +kernel) rfl nofun
  have span : (spanOf {} ["@d", "def f():", "    # @spec-impl: X-1", "    pass", "f()"]
      .implementation 3) = ⟨0, 3⟩ := by decide +kernel
  rw [span] at range
  obtain ⟨first, last⟩ := visible (.inl rfl)
  exact ⟨context, e, member, other, range, first, last, faithful e member other⟩

end Excerpt

end Traceability
