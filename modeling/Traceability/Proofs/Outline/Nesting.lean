import Traceability.Outline.Basic

/-!
# How sections nest

Sections that come in the order of their lines are nested by their levels: the walk through the forest
gives them back in their order, a section is a root when no section before it has a smaller level, and
otherwise it is a child of the nearest section before it that has one.
-/
namespace Traceability

/-- Of a list along which a property is never regained, the longest front part that has it is all that
has it. -/
theorem takeWhile_eq_filter {α : Type} {p : α → Bool} {l : List α}
    (lost : l.Pairwise fun a b => p b = true → p a = true) : l.takeWhile p = l.filter p := by
  induction l with
  | nil => rfl
  | cons a l ih =>
    obtain ⟨here, lost⟩ := List.pairwise_cons.mp lost
    cases held : p a with
    | true => rw [List.takeWhile_cons_of_pos held, List.filter_cons_of_pos held, ih lost]
    | false =>
      have none : l.filter p = [] := by
        apply List.filter_eq_nil_iff.mpr
        intro b member later
        rw [here b member later] at held
        cases held
      rw [List.takeWhile_cons_of_neg (by simp [held]), List.filter_cons_of_neg (by simp [held]),
        none]

theorem dropWhile_eq_filter {α : Type} {p : α → Bool} {l : List α}
    (lost : l.Pairwise fun a b => p b = true → p a = true) :
    l.dropWhile p = l.filter fun a => !p a := by
  induction l with
  | nil => rfl
  | cons a l ih =>
    obtain ⟨here, lost⟩ := List.pairwise_cons.mp lost
    cases held : p a with
    | true =>
      rw [List.dropWhile_cons_of_pos held, List.filter_cons_of_neg (by simp [held]), ih lost]
    | false =>
      have all : l.filter (fun a => !p a) = l := by
        apply List.filter_eq_self.mpr
        intro b member
        cases later : p b with
        | true =>
          rw [here b member later] at held
          cases held
        | false => rfl
      rw [List.dropWhile_cons_of_neg (by simp [held]), List.filter_cons_of_pos (by simp [held]),
        all]

namespace Outline

variable {s p c q : Section} {forest rest : List Section}

theorem walk_eq (s : Section) : s.walk = s :: walkAll s.children := by
  cases s
  rw [Section.walk]

theorem walkAll_append (a b : List Section) : walkAll (a ++ b) = walkAll a ++ walkAll b := by
  induction a with
  | nil => simp [walkAll]
  | cons s a ih => simp [walkAll, ih]

theorem mem_walkAll_iff : p ∈ walkAll forest ↔ ∃ r ∈ forest, p ∈ r.walk := by
  induction forest with
  | nil => simp [walkAll]
  | cons s rest ih => simp [walkAll, ih]

theorem mem_walkAll_of_mem (member : s ∈ forest) : s ∈ walkAll forest := by
  have first : s ∈ s.walk := by simp [walk_eq]
  exact mem_walkAll_iff.mpr ⟨s, member, first⟩

mutual

theorem mem_walk_of_mem_walk {s : Section} (upper : p ∈ s.walk) (lower : c ∈ p.walk) :
    c ∈ s.walk := by
  obtain ⟨heading, level, line, content, children⟩ := s
  rw [Section.walk] at upper ⊢
  rcases List.mem_cons.mp upper with rfl | below
  · rwa [Section.walk] at lower
  · exact List.mem_cons_of_mem _ (mem_walkAll_of_mem_walk below lower)

/-- A walk that comes to a section comes to all that is in it. -/
theorem mem_walkAll_of_mem_walk {forest : List Section} (upper : p ∈ walkAll forest)
    (lower : c ∈ p.walk) : c ∈ walkAll forest := by
  cases forest with
  | nil => cases upper
  | cons s rest =>
    rw [walkAll] at upper ⊢
    rcases List.mem_append.mp upper with here | later
    · exact List.mem_append_left _ (mem_walk_of_mem_walk here lower)
    · exact List.mem_append_right _ (mem_walkAll_of_mem_walk later lower)

end

theorem mem_walkAll_of_mem_children (parent : p ∈ walkAll forest) (child : c ∈ p.children) :
    c ∈ walkAll forest := by
  refine mem_walkAll_of_mem_walk parent ?_
  rw [walk_eq]
  exact List.mem_cons_of_mem _ (mem_walkAll_of_mem child)

/-- The section that comes of planting: the roots with a greater level are its children. -/
def planted (s : Section) (forest : List Section) : Section :=
  { s with children := forest.takeWhile (s.level < ·.level) }

/-- Planting puts one section in front of the walk and moves none. -/
theorem walkAll_plant (s : Section) (forest : List Section) :
    walkAll (plant s forest) = planted s forest :: walkAll forest := by
  have parts := walkAll_append (forest.takeWhile (s.level < ·.level))
    (forest.dropWhile (s.level < ·.level))
  rw [List.takeWhile_append_dropWhile] at parts
  rw [plant, walkAll, Section.walk, List.cons_append, ← parts]
  rfl

theorem walkAll_nest_cons (s : Section) (rest : List Section) :
    walkAll (nest (s :: rest)) = planted s (nest rest) :: walkAll (nest rest) :=
  walkAll_plant s (nest rest)

/-- A walk through nested sections gives what does not depend on their children as it was. -/
theorem map_walkAll_nest {α : Type} (f : Section → α)
    (blind : ∀ s children, f { s with children := children } = f s) (sections : List Section) :
    (walkAll (nest sections)).map f = sections.map f := by
  induction sections with
  | nil => rfl
  | cons s rest ih =>
    have first : f (planted s (nest rest)) = f s := blind s _
    rw [walkAll_nest_cons, List.map_cons, List.map_cons, ih, first]

/-- Whether a forest is nested by level: lines grow along its walk, its roots are the sections before
which no section has a smaller level, and a section is a child of the nearest section before it that
has a smaller level. -/
structure Nested (forest : List Section) : Prop where
  ordered : (walkAll forest).Pairwise (·.line < ·.line)
  root_iff : ∀ c ∈ walkAll forest, c ∈ forest ↔
    ∀ q ∈ walkAll forest, q.line < c.line → c.level ≤ q.level
  child_iff : ∀ p ∈ walkAll forest, ∀ c ∈ walkAll forest, c ∈ p.children ↔
    p.line < c.line ∧ p.level < c.level ∧
      ∀ q ∈ walkAll forest, p.line < q.line → q.line < c.line → c.level ≤ q.level

theorem nested_nil : Nested [] where
  ordered := .nil
  root_iff := by simp [walkAll]
  child_iff := by simp [walkAll]

namespace Nested

/-- Along the roots levels never rise, as a root has no section with a smaller level before it. -/
theorem roots (nested : Nested forest) : forest.Pairwise fun a b => b.level ≤ a.level := by
  have among : forest.Sublist (walkAll forest) := by
    clear nested
    induction forest with
    | nil => exact .slnil
    | cons s rest ih =>
      rw [walkAll, walk_eq, List.cons_append]
      exact (ih.trans (List.sublist_append_right _ _)).cons_cons s
  have ordered := nested.ordered.sublist among
  apply ordered.imp_of_mem
  intro a b first second before
  exact (nested.root_iff b (mem_walkAll_of_mem second)).mp second a (mem_walkAll_of_mem first) before

/-- Along the roots a greater level than a given one is never regained. -/
theorem deeper_lost (nested : Nested forest) (level : Nat) : forest.Pairwise fun a b =>
    decide (level < b.level) = true → decide (level < a.level) = true := by
  apply nested.roots.imp
  intro a b falling deeper
  rw [decide_eq_true_eq] at deeper ⊢
  exact Nat.lt_of_lt_of_le deeper falling

theorem mem_children_planted (nested : Nested forest) :
    c ∈ (planted s forest).children ↔ c ∈ forest ∧ s.level < c.level := by
  rw [planted, takeWhile_eq_filter (nested.deeper_lost s.level), List.mem_filter,
    decide_eq_true_eq]

theorem mem_plant (nested : Nested forest) :
    c ∈ plant s forest ↔ c = planted s forest ∨ c ∈ forest ∧ c.level ≤ s.level := by
  rw [plant, List.mem_cons, dropWhile_eq_filter (nested.deeper_lost s.level), List.mem_filter]
  simp [planted]

section Planting

variable (nested : Nested forest) (front : ∀ q ∈ walkAll forest, s.line < q.line)

include nested front

theorem root_iff_plant (member : c ∈ planted s forest :: walkAll forest) :
    c ∈ plant s forest ↔
      ∀ q ∈ planted s forest :: walkAll forest, q.line < c.line → c.level ≤ q.level := by
  rw [nested.mem_plant, List.forall_mem_cons]
  rcases List.mem_cons.mp member with rfl | later
  · -- nothing comes before the section that is planted
    refine iff_of_true (.inl rfl) ⟨fun _ => Nat.le_refl _, ?_⟩
    intro q among before
    exact absurd (front q among) (Nat.lt_asymm before)
  · have behind : s.line < c.line := front c later
    have other : c ≠ planted s forest := by
      rintro rfl
      exact absurd behind (Nat.lt_irrefl _)
    rw [nested.root_iff c later]
    constructor
    · intro root
      obtain ⟨before, deep⟩ := root.resolve_left other
      exact ⟨fun _ => deep, before⟩
    · intro root
      exact .inr ⟨root.2, root.1 behind⟩

theorem child_iff_planted (member : c ∈ planted s forest :: walkAll forest) :
    c ∈ (planted s forest).children ↔ s.line < c.line ∧ s.level < c.level ∧
      ∀ q ∈ planted s forest :: walkAll forest,
        s.line < q.line → q.line < c.line → c.level ≤ q.level := by
  rw [nested.mem_children_planted, List.forall_mem_cons]
  rcases List.mem_cons.mp member with rfl | later
  · refine iff_of_false (fun child => ?_) (fun child => absurd child.1 (Nat.lt_irrefl _))
    exact absurd child.2 (Nat.lt_irrefl _)
  · have behind := front c later
    rw [nested.root_iff c later]
    constructor
    · intro child
      refine ⟨behind, child.2, fun before => absurd before (Nat.lt_irrefl _), ?_⟩
      intro q among _ before
      exact child.1 q among before
    · intro child
      refine ⟨fun q among before => ?_, child.2.1⟩
      exact child.2.2.2 q among (front q among) before

theorem child_iff_later (parent : p ∈ walkAll forest)
    (member : c ∈ planted s forest :: walkAll forest) :
    c ∈ p.children ↔ p.line < c.line ∧ p.level < c.level ∧
      ∀ q ∈ planted s forest :: walkAll forest,
        p.line < q.line → q.line < c.line → c.level ≤ q.level := by
  have after : s.line < p.line := front p parent
  rcases List.mem_cons.mp member with rfl | later
  · refine iff_of_false (fun child => ?_) (fun child => absurd child.1 (Nat.lt_asymm after))
    have behind := front _ (mem_walkAll_of_mem_children parent child)
    exact absurd behind (Nat.lt_irrefl _)
  · rw [nested.child_iff p parent c later, List.forall_mem_cons]
    constructor
    · intro child
      exact ⟨child.1, child.2.1, fun before => absurd before (Nat.lt_asymm after), child.2.2⟩
    · intro child
      exact ⟨child.1, child.2.1, child.2.2.2⟩

/-- A section in front of all others is planted among them. -/
theorem plant : Nested (plant s forest) where
  ordered := by
    rw [walkAll_plant]
    exact List.pairwise_cons.mpr ⟨front, nested.ordered⟩
  root_iff := by
    rw [walkAll_plant]
    intro c member
    exact nested.root_iff_plant front member
  child_iff := by
    rw [walkAll_plant]
    intro p parent c member
    rcases List.mem_cons.mp parent with rfl | parent
    · exact nested.child_iff_planted front member
    · exact nested.child_iff_later front parent member

end Planting

end Nested

/-- Sections in the order of their lines are nested by their levels. -/
theorem nested_nest {sections : List Section} (ordered : sections.Pairwise (·.line < ·.line)) :
    Nested (nest sections) := by
  induction sections with
  | nil => exact nested_nil
  | cons s rest ih =>
    obtain ⟨front, ordered⟩ := List.pairwise_cons.mp ordered
    apply (ih ordered).plant
    intro q among
    have line := List.mem_map_of_mem (f := Section.line) among
    rw [map_walkAll_nest Section.line (fun _ _ => rfl)] at line
    obtain ⟨r, member, same⟩ := List.mem_map.mp line
    rw [← same]
    exact front r member

end Outline

end Traceability
