/-!
# Sorted lists

Sorting by insertion: the result has the elements of the list, stands in order when the comparison is
total and transitive, and keeps elements that compare alike in the order they had.
-/
namespace Traceability

variable {α : Type}

def insertBy (le : α → α → Bool) (a : α) : List α → List α
  | [] => [a]
  | b :: rest => if le a b then a :: b :: rest else b :: insertBy le a rest

/-- The elements of a list in order. -/
def sortBy (le : α → α → Bool) : List α → List α
  | [] => []
  | a :: rest => insertBy le a (sortBy le rest)

theorem insertBy_perm (le : α → α → Bool) (a : α) (l : List α) :
    (insertBy le a l).Perm (a :: l) := by
  induction l with
  | nil => exact .refl _
  | cons b rest ih =>
    unfold insertBy
    split
    · exact .refl _
    · exact (ih.cons b).trans (.swap a b rest)

/-- Sorting keeps the elements. -/
theorem sortBy_perm (le : α → α → Bool) (l : List α) : (sortBy le l).Perm l := by
  induction l with
  | nil => exact .refl _
  | cons a rest ih => exact (insertBy_perm le a _).trans (ih.cons a)

theorem mem_sortBy {le : α → α → Bool} {a : α} {l : List α} : a ∈ sortBy le l ↔ a ∈ l :=
  (sortBy_perm le l).mem_iff

theorem pairwise_insertBy {le : α → α → Bool} (total : ∀ a b, le a b = true ∨ le b a = true)
    (trans : ∀ a b c, le a b = true → le b c = true → le a c = true) (a : α) {l : List α}
    (h : l.Pairwise (le · · = true)) : (insertBy le a l).Pairwise (le · · = true) := by
  induction l with
  | nil => simp [insertBy]
  | cons b rest ih =>
    obtain ⟨hb, hr⟩ := List.pairwise_cons.mp h
    unfold insertBy
    split
    · rename_i hab
      refine List.pairwise_cons.mpr ⟨fun x hx => ?_, h⟩
      rcases List.mem_cons.mp hx with rfl | hx
      · exact hab
      · exact trans _ _ _ hab (hb x hx)
    · rename_i hab
      refine List.pairwise_cons.mpr ⟨fun x hx => ?_, ih hr⟩
      rcases List.mem_cons.mp ((insertBy_perm le a rest).mem_iff.mp hx) with rfl | hx
      · exact (total x b).resolve_left hab
      · exact hb x hx

/-- A sorted list stands in order. -/
theorem pairwise_sortBy {le : α → α → Bool} (total : ∀ a b, le a b = true ∨ le b a = true)
    (trans : ∀ a b c, le a b = true → le b c = true → le a c = true) (l : List α) :
    (sortBy le l).Pairwise (le · · = true) := by
  induction l with
  | nil => exact .nil
  | cons a rest ih => exact pairwise_insertBy total trans a ih

theorem filter_insertBy_of_neg {le : α → α → Bool} {p : α → Bool} {a : α} (out : ¬ p a = true)
    (l : List α) : (insertBy le a l).filter p = l.filter p := by
  induction l with
  | nil => simp [insertBy, out]
  | cons b rest ih =>
    unfold insertBy
    split
    · rw [List.filter_cons_of_neg out]
    · rw [List.filter_cons, List.filter_cons, ih]

theorem filter_insertBy_of_pos {le : α → α → Bool} {p : α → Bool} {a : α} (kept : p a = true)
    {l : List α} (alike : ∀ b ∈ l, p b = true → le a b = true) :
    (insertBy le a l).filter p = a :: l.filter p := by
  induction l with
  | nil => simp [insertBy, kept]
  | cons b rest ih =>
    unfold insertBy
    split
    · rw [List.filter_cons_of_pos kept]
    · next later =>
      have out : ¬ p b = true := fun kept => later (alike b List.mem_cons_self kept)
      rw [List.filter_cons_of_neg out, List.filter_cons_of_neg out]
      exact ih fun c member => alike c (List.mem_cons_of_mem _ member)

/-- Sorting keeps the order of elements that compare alike. -/
theorem filter_sortBy {le : α → α → Bool} {p : α → Bool}
    (alike : ∀ a b, p a = true → p b = true → le a b = true) (l : List α) :
    (sortBy le l).filter p = l.filter p := by
  induction l with
  | nil => rfl
  | cons a rest ih =>
    rw [sortBy]
    by_cases kept : p a = true
    · rw [filter_insertBy_of_pos kept fun b _ => alike a b kept, ih, List.filter_cons_of_pos kept]
    · rw [filter_insertBy_of_neg kept, ih,
        List.filter_cons_of_neg kept]

end Traceability
