import Traceability.Pattern.Group
import Traceability.Proofs.Pattern.Tracks

/-!
# Escapes and sets read twice

A reading that tracks another one reads the same escapes and sets, and nodes of the same widths: these do
not depend on the flags.
-/
namespace Traceability

namespace PatternNode

/-- Whether two nodes can match the same numbers of characters. -/
def Alike (a b : PatternNode) : Prop := ∀ groups, a.width groups = b.width groups

variable {f g : PatternFlags}

theorem alike_char (code : Nat) : Alike (.char code f) (.char code g) := fun _ => rfl

theorem alike_set (negated : Bool) (items : List SetItem) :
    Alike (.set negated items f) (.set negated items g) := fun _ => rfl

theorem alike_boundary (place : Boundary) : Alike (.boundary place f) (.boundary place g) :=
  fun _ => rfl

theorem alike_again (index : Nat) : Alike (.again index f) (.again index g) := fun _ => rfl

end PatternNode

namespace PatternReader

open PatternReading PatternNode

/-- Whether two items are of the same sort, with nodes alike. -/
def AlikeItem (a b : ItemSort × PatternNode) : Prop := a.1 = b.1 ∧ Alike a.2 b.2

variable {ending : Text} {base : PatternFlags} {n : Nat} {f g : PatternFlags}

theorem mirrors_hexEscape {letter : Char} {count : Nat} :
    Mirrors ending base n Eq (hexEscape letter count) (hexEscape letter count) :=
  (mirrors_upTo (by decide) (.inl rfl)).seq fun _ =>
    follows_unless fails_fail fun _ => follows_unless fails_fail fun _ => follows_pure rfl

theorem mirrors_octal {digits : Text} :
    Mirrors ending base n Eq (octal digits) (octal digits) :=
  follows_unless fails_fail fun _ => follows_pure rfl

theorem mirrors_plainEscape {c : Char} :
    Mirrors ending base n Eq (plainEscape c) (plainEscape c) :=
  follows_unless fails_fail fun _ => follows_pure rfl

theorem mirrors_checkLookbehind {index : Nat} :
    Mirrors ending base n Eq (checkLookbehind index) (checkLookbehind index) := by
  refine follows_get fun s t tracks => ?_
  rw [← tracks.lookbehind, ← tracks.groups]
  cases s.lookbehind with
  | none => exact follows_pure rfl
  | some outside =>
    refine follows_unless fails_fail fun _ => ?_
    exact follows_unless fails_fail fun _ => follows_pure rfl

theorem mirrors_reference {digits : Text} :
    Mirrors ending base n Alike (reference f digits) (reference g digits) := by
  refine follows_get fun s t tracks => ?_
  rw [← tracks.groups]
  refine follows_ite (fun _ => ?_) fun _ => fails_fail.follows
  refine follows_unless fails_fail fun _ => ?_
  exact mirrors_checkLookbehind.seq fun _ => follows_pure (alike_again _)

theorem mirrors_digitEscape {c : Char} :
    Mirrors ending base n Alike (digitEscape f c) (digitEscape g c) := by
  refine (mirrors_upTo (by decide) (.inl rfl)).seq fun digits => ?_
  split
  · refine follows_ite (fun _ => ?_) fun _ => mirrors_reference
    refine (mirrors_upTo (by decide) (.inl rfl)).seq fun more => ?_
    split
    · exact mirrors_octal.seq fun code => follows_pure (alike_char code)
    · exact mirrors_reference
  · exact mirrors_reference

variable [CharacterNames]

theorem mirrors_namedEscape : Mirrors ending base n Eq namedEscape namedEscape := by
  refine (mirrors_accept (by decide)).seq fun opened => ?_
  refine follows_ite (fun _ => ?_) fun _ => fails_fail.follows
  refine mirrors_nameUpTo.seq fun word => ?_
  split
  · exact follows_pure rfl
  · exact fails_fail.follows

theorem mirrors_setEscape {c : Char} :
    Mirrors ending base n Eq (setEscape c) (setEscape c) := by
  unfold setEscape
  split
  · exact follows_pure rfl
  · exact follows_pure rfl
  · refine follows_ite (fun _ => mirrors_hexEscape.map _) fun _ => ?_
    refine follows_ite (fun _ => mirrors_hexEscape.map _) fun _ => ?_
    refine follows_ite (fun _ => mirrors_hexEscape.map _) fun _ => ?_
    refine follows_ite (fun _ => mirrors_namedEscape.map _) fun _ => ?_
    refine follows_ite (fun _ => ?_) fun _ => mirrors_plainEscape.map _
    exact (mirrors_upTo (by decide) (.inl rfl)).seq fun _ => mirrors_octal.map _

theorem mirrors_setElement {token : Text} :
    Mirrors ending base n Eq (setItems.setElement token) (setItems.setElement token) := by
  unfold setItems.setElement
  split
  · exact mirrors_setEscape
  · exact follows_pure rfl
  · exact follows_pure rfl

theorem mirrors_setItems {start start' k k' : Nat} (le : k ≤ k') (read : List SetItem) :
    Mirrors ending base n Eq (setItems start k read) (setItems start' k' read) := by
  induction k generalizing k' read with
  | zero => exact fails_fail.follows
  | succ k ih =>
    obtain ⟨j, rfl⟩ := Nat.exists_eq_succ_of_ne_zero (Nat.ne_zero_of_lt le)
    have onward := ih (Nat.le_of_succ_le_succ le)
    refine follows_next (fun this => ?_) fails_failAt
    refine follows_ite (fun _ => follows_pure rfl) fun _ => ?_
    refine mirrors_setElement.seq fun low => ?_
    refine (mirrors_accept (by decide)).seq fun ranged => ?_
    refine follows_ite (fun _ => ?_) fun _ => onward _
    refine follows_next (fun that => ?_) fails_failAt
    refine follows_ite (fun _ => follows_pure rfl) fun _ => ?_
    refine mirrors_setElement.seq fun high => ?_
    dsimp only
    split
    · exact follows_unless fails_fail fun _ => onward _
    · exact fails_fail.follows

theorem mirrors_readSet : Mirrors ending base n Alike (readSet f) (readSet g) := by
  refine follows_get fun s t _ => ?_
  refine (mirrors_accept (by decide)).seq fun negated => ?_
  refine follows_get fun s t tracks => ?_
  refine (mirrors_setItems (Nat.succ_le_succ tracks.length_le) _).seq fun items => ?_
  exact follows_pure (alike_set negated items)

theorem mirrors_escape {c : Char} :
    Mirrors ending base n AlikeItem (escape f c) (escape g c) := by
  have char {x : PatternReader Nat} (same : Mirrors ending base n Eq x x) :
      Mirrors ending base n AlikeItem (do pure (.other, .char (← x) f))
        (do pure (.other, .char (← x) g)) :=
    same.seq fun code => follows_pure ⟨rfl, alike_char code⟩
  unfold escape
  split
  · exact follows_pure ⟨rfl, alike_set _ _⟩
  · exact follows_pure ⟨rfl, alike_boundary _⟩
  · exact follows_pure ⟨rfl, alike_char _⟩
  · refine follows_ite (fun _ => char mirrors_hexEscape) fun _ => ?_
    refine follows_ite (fun _ => char mirrors_hexEscape) fun _ => ?_
    refine follows_ite (fun _ => char mirrors_hexEscape) fun _ => ?_
    refine follows_ite (fun _ => char mirrors_namedEscape) fun _ => ?_
    refine follows_ite (fun _ => ?_) fun _ => ?_
    · refine (mirrors_upTo (by decide) (.inl rfl)).seq fun digits => ?_
      exact mirrors_octal.seq fun code => follows_pure ⟨rfl, alike_char code⟩
    · refine follows_ite (fun _ => ?_) fun _ => char mirrors_plainEscape
      exact mirrors_digitEscape.bind fun _ _ alike => follows_pure ⟨rfl, alike⟩

end PatternReader

end Traceability
