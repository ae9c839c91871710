import Traceability.Proofs.Line
import Traceability.Proofs.Path

/-!
# Lines of joined texts

Texts that are joined by line feeds keep their lines: each has those that it has in front of a line
feed, which are its own and at most an empty one more.
-/
namespace Traceability

namespace Text

variable {line rest b t : Text} {pieces : List Text}

theorem isBreak_feed (rest : Text) : IsBreak rest ['\n'] :=
  .single (by decide) fun same => absurd same (by decide)

/-- A line feed behind a text starts a new line, or joins a final carriage return. -/
theorem lines_append_feed_cases (unbroken : Unbroken line) (sep : IsBreak rest b) :
    (lines (line ++ (b ++ rest)) = [line] ∧
      ∀ more, lines (line ++ (b ++ rest) ++ '\n' :: more) = line :: lines more) ∨
    ∀ more, lines (line ++ (b ++ rest) ++ '\n' :: more) = line :: lines (rest ++ '\n' :: more) := by
  have further (apart : ∀ more, IsBreak (rest ++ '\n' :: more) b) (more : Text) :
      lines (line ++ (b ++ rest) ++ '\n' :: more) = line :: lines (rest ++ '\n' :: more) := by
    rw [List.append_assoc, List.append_assoc]
    exact lines_append unbroken (apart more)
  cases sep with
  | pair => exact .inr (further fun _ => .pair)
  | @single c breaks alone =>
    cases rest with
    | cons d rest => exact .inr (further fun _ => .single breaks alone)
    | nil =>
      by_cases feed : c = '\r'
      · subst feed
        refine .inl ⟨lines_append unbroken (.single breaks alone), fun more => ?_⟩
        rw [List.append_assoc]
        exact lines_append unbroken .pair
      · exact .inr (further fun _ => .single breaks fun same => absurd same feed)

/-- The lines of a text with a line feed behind it: its own, and an empty one where it is empty or ends
with a break that is none with the feed. -/
def fedLines (t : Text) : List Text := lines (t ++ ['\n'])

theorem fedLines_of_unbroken (unbroken : Unbroken line) : fedLines line = [line] := by
  have whole := lines_append unbroken (isBreak_feed [])
  rwa [List.append_nil] at whole

/-- Text behind a line feed starts a line of its own. -/
theorem lines_append_feed (t rest : Text) :
    lines (t ++ '\n' :: rest) = fedLines t ++ lines rest := by
  have short {line : Text} (unbroken : Unbroken line) :
      lines (line ++ '\n' :: rest) = fedLines line ++ lines rest := by
    rw [fedLines_of_unbroken unbroken]
    exact lines_append unbroken (isBreak_feed rest)
  induction t using line_induction with
  | nil => exact short (List.forall_mem_nil _)
  | last line unbroken _ => exact short unbroken
  | more line b r unbroken sep ih =>
    rcases lines_append_feed_cases unbroken sep with ⟨-, joined⟩ | apart
    · rw [fedLines, joined, joined]
      rfl
    · rw [fedLines, apart, apart, ih]
      rfl

theorem fedLines_eq (t : Text) : fedLines t = lines t ∨ fedLines t = lines t ++ [[]] := by
  induction t using line_induction with
  | nil => exact .inr rfl
  | last line unbroken filled =>
    rw [fedLines_of_unbroken unbroken, lines_of_unbroken unbroken filled]
    exact .inl rfl
  | more line b r unbroken sep ih =>
    rcases lines_append_feed_cases unbroken sep with ⟨single, joined⟩ | apart
    · rw [fedLines, joined, single]
      exact .inl rfl
    · rw [fedLines, apart, lines_append unbroken sep]
      rcases ih with same | more
      · exact .inl (congrArg (line :: ·) same)
      · exact .inr (congrArg (line :: ·) more)

/-- Pieces that are joined by line feeds, the last of them empty, have the lines that each has in front
of its feed. -/
theorem lines_join_feeds (pieces : List Text) :
    lines (join ['\n'] (pieces ++ [[]])) = pieces.flatMap fedLines := by
  induction pieces with
  | nil => rfl
  | cons piece pieces ih =>
    obtain ⟨next, more, shape⟩ := List.exists_cons_of_ne_nil
      (List.append_ne_nil_of_right_ne_nil pieces (List.cons_ne_nil ([] : Text) []))
    rw [List.cons_append, shape, join_cons_cons, List.singleton_append, lines_append_feed, ← shape,
      ih, List.flatMap_cons]

theorem unbroken_ofNat (n : Nat) : Unbroken (ofNat n) := by
  intro c member
  have digit := Nat.isDigit_of_mem_toDigits (by decide) (by decide) member
  rw [Char.isDigit, Bool.and_eq_true, decide_eq_true_eq, decide_eq_true_eq] at digit
  have least : 48 ≤ c.toNat := digit.1
  have most : c.toNat ≤ 57 := digit.2
  simp only [isLineBreak]
  simp
  omega

theorem unbroken_ofInt (n : Int) : Unbroken (ofInt n) := by
  cases n with
  | ofNat n => exact unbroken_ofNat n
  | negSucc n => exact List.forall_mem_cons.mpr ⟨by decide, unbroken_ofNat _⟩

theorem flatMap_fedLines (unbroken : ∀ t ∈ pieces, Unbroken t) :
    pieces.flatMap fedLines = pieces := by
  induction pieces with
  | nil => rfl
  | cons t pieces ih =>
    obtain ⟨here, unbroken⟩ := List.forall_mem_cons.mp unbroken
    rw [List.flatMap_cons, fedLines_of_unbroken here, ih unbroken, List.singleton_append]

theorem Unbroken.append {s t : Text} (front : Unbroken s) (behind : Unbroken t) :
    Unbroken (s ++ t) :=
  List.forall_mem_append.mpr ⟨front, behind⟩

end Text

end Traceability
