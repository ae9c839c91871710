import Traceability.Text.Basic

/-!
# Where texts are cut

A text is cut at the first occurrence of a word, if it has one.
-/
namespace Traceability.Text

variable {word t before rest : Text}

theorem includes_iff_infix : t.includes word = true ↔ word <:+: t := by
  constructor
  · intro found
    obtain ⟨⟨before, rest⟩, cut⟩ := Option.isSome_iff_exists.mp found
    exact ⟨before, rest, (eq_of_cut?_eq_some cut).symm⟩
  · rintro ⟨before, rest, rfl⟩
    induction before with
    | nil =>
      have here : dropStem? word (word ++ rest) = some rest := dropStem?_eq_some_iff.mpr rfl
      cases whole : word ++ rest with
      | nil =>
        obtain ⟨rfl, rfl⟩ := List.append_eq_nil_iff.mp whole
        rfl
      | cons c t =>
        rw [whole] at here
        simp [includes, cut?, here, whole]
    | cons c before ih =>
      rw [includes, Option.isSome_iff_exists] at ih
      obtain ⟨parts, later⟩ := ih
      rw [List.cons_append, List.cons_append, includes, cut?]
      split
      · rfl
      · rw [later]
        rfl

/-- Whether a text is what stands in front of the first occurrence of a word in another one. -/
def StandsBefore (word t before : Text) : Prop :=
  (∃ rest, t = before ++ word ++ rest) ∧
    ∀ before' rest', t = before' ++ word ++ rest' → before.length ≤ before'.length

theorem standsBefore_of_cut? (cut : cut? word t = some (before, rest)) :
    StandsBefore word t before := by
  refine ⟨⟨rest, eq_of_cut?_eq_some cut⟩, fun before' rest' shape => ?_⟩
  induction t generalizing before before' with
  | nil =>
    rw [cut?] at cut
    split at cut
    · cases cut
      exact Nat.zero_le _
    · cases cut
  | cons c t ih =>
    rw [cut?] at cut
    split at cut
    · cases cut
      exact Nat.zero_le _
    · next apart =>
      obtain ⟨⟨front, _⟩, later, same⟩ := Option.map_eq_some_iff.mp cut
      cases same
      cases before' with
      | nil =>
        rw [List.nil_append] at shape
        rw [dropStem?_eq_some_iff.mpr shape] at apart
        cases apart
      | cons d front' =>
        cases shape
        exact Nat.succ_le_succ (ih later front' rfl)

theorem StandsBefore.unique {before' : Text} (first : StandsBefore word t before)
    (first' : StandsBefore word t before') : before = before' := by
  obtain ⟨⟨rest, shape⟩, least⟩ := first
  obtain ⟨⟨rest', shape'⟩, least'⟩ := first'
  have length := Nat.le_antisymm (least before' rest' shape') (least' before rest shape)
  rw [shape, List.append_assoc, List.append_assoc] at shape'
  exact (List.append_inj shape' length).1

theorem map_fst_cut?_eq_some_iff :
    (cut? word t).map (·.1) = some before ↔ StandsBefore word t before := by
  constructor
  · intro cut
    obtain ⟨⟨_, rest⟩, whole, rfl⟩ := Option.map_eq_some_iff.mp cut
    exact standsBefore_of_cut? whole
  · intro first
    have inside : word <:+: t := by
      obtain ⟨⟨rest, shape⟩, _⟩ := first
      exact ⟨before, rest, shape.symm⟩
    have found : t.includes word = true := includes_iff_infix.mpr inside
    obtain ⟨⟨front, rest⟩, cut⟩ := Option.isSome_iff_exists.mp found
    rw [cut, first.unique (standsBefore_of_cut? cut)]
    rfl

theorem cut?_eq_some_iff :
    cut? word t = some (before, rest) ↔ t = before ++ word ++ rest ∧ StandsBefore word t before := by
  constructor
  · intro cut
    exact ⟨eq_of_cut?_eq_some cut, standsBefore_of_cut? cut⟩
  · rintro ⟨shape, first⟩
    obtain ⟨⟨_, rest'⟩, cut, rfl⟩ := Option.map_eq_some_iff.mp (map_fst_cut?_eq_some_iff.mpr first)
    have same := eq_of_cut?_eq_some cut
    rw [shape] at same
    rw [cut, List.append_cancel_left same]

end Traceability.Text
