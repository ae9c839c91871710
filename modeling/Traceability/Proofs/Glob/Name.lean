import Mathlib.Data.List.Infix
import Traceability.Glob.Name

/-!
# Patterns for names

What simple patterns fit: one that spells a name fits this name only, and one that is a star and a
spelled end fits the names with that end. A pattern without brackets is read character by character.
-/
namespace Traceability.Glob

open NamePattern

variable {n t w : Text}

theorem mem_tails_iff : w ∈ tails t ↔ w <:+ t := by
  induction t with
  | nil => simp [tails]
  | cons c t ih => rw [tails, List.mem_cons, ih, List.suffix_cons_iff]

theorem fits_exactly_iff : fits (w.map .exactly) t = true ↔ t = w := by
  induction w generalizing t with
  | nil => simp [fits]
  | cons c w ih =>
    cases t with
    | nil => simp [fits]
    | cons d t => simp [fits, holds, ih]

theorem fits_star_iff : fits (.star :: w.map .exactly) t = true ↔ w <:+ t := by
  rw [fits, List.any_eq_true]
  simp [fits_exactly_iff, mem_tails_iff]

/-! ## Patterns without brackets -/

/-- What a character other than a bracket stands for. -/
def NamePiece.ofChar (c : Char) : NamePiece :=
  if c = '*' then .star else if c = '?' then .one else .exactly c

theorem ofText_eq_map (unbracketed : '[' ∉ t) : ofText t = t.map .ofChar := by
  have all (fuel : Nat) (enough : t.length ≤ fuel) : ofTextWithin fuel t = t.map .ofChar := by
    induction t generalizing fuel with
    | nil => cases fuel <;> rfl
    | cons c t ih =>
      obtain ⟨other, unbracketed⟩ := not_or.mp (mt List.mem_cons.mpr unbracketed)
      obtain ⟨fuel, rfl⟩ : ∃ k, fuel = k + 1 := Nat.exists_eq_add_one_of_ne_zero (by
        rw [List.length_cons] at enough
        omega)
      have later := ih unbracketed fuel (Nat.le_of_succ_le_succ enough)
      rw [ofTextWithin, later, if_neg (Ne.symm other), List.map_cons, NamePiece.ofChar]
      split_ifs <;> rfl
  exact all t.length (Nat.le_refl _)

/-- A text without signs of a pattern fits itself. -/
theorem fits_self (plain : isPattern t = false) : fits (t.map .ofChar) t = true := by
  have spelled : t.map NamePiece.ofChar = t.map .exactly := by
    refine List.map_congr_left fun c member => ?_
    have other := List.any_eq_false.mp plain c member
    simp only [Bool.or_eq_true, decide_eq_true_eq, not_or] at other
    rw [NamePiece.ofChar, if_neg other.1.1, if_neg other.1.2]
  rw [spelled]
  exact fits_exactly_iff.mpr rfl

end Traceability.Glob
