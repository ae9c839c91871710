import Mathlib.Tactic.Tauto
import Traceability.Marker.Directive

/-!
# What directives ask for

A start outside of all blocks opens a block, which goes on through the next end, or to the end of the
file where there is none. A directive for the next line that stands outside of all blocks waits: lines
of blocks do not count, and the first line outside of them is left out. That much the scan remembers of
the lines it has read, so a line is left out just where a directive asks for it.
-/
namespace Traceability.Marker

/-! ## What has held since some place -/

/-- Whether a property has held at all places since an earlier one, at which another one began it. -/
def Since (begins holds : Nat → Prop) (k : Nat) : Prop :=
  ∃ j < k, begins j ∧ ∀ i, j < i → i < k → holds i

section Since

variable {begins holds : Nat → Prop} {k : Nat}

theorem not_since_zero : ¬ Since begins holds 0 := by
  rintro ⟨j, before, _⟩
  exact Nat.not_lt_zero j before

theorem since_succ : Since begins holds (k + 1) ↔ begins k ∨ Since begins holds k ∧ holds k := by
  constructor
  · rintro ⟨j, before, began, all⟩
    rcases Nat.eq_or_lt_of_le (Nat.le_of_lt_succ before) with rfl | before
    · exact .inl began
    · exact .inr ⟨⟨j, before, began, fun i after upTo => all i after (Nat.lt_succ_of_lt upTo)⟩,
        all k before (Nat.lt_succ_self k)⟩
  · rintro (began | ⟨⟨j, before, began, all⟩, last⟩)
    · exact ⟨k, Nat.lt_succ_self k, began, fun i after upTo => by omega⟩
    · refine ⟨j, Nat.lt_succ_of_lt before, began, fun i after upTo => ?_⟩
      rcases Nat.eq_or_lt_of_le (Nat.le_of_lt_succ upTo) with rfl | upTo
      · exact last
      · exact all i after upTo

end Since

/-! ## Blocks, and directives that wait -/

variable {lines : List Text} {line : Text} {d : Directive} {h : Hiding} {k : Nat}

/-- Whether a line, counted from zero, carries a directive. -/
def Carries (lines : List Text) (d : Directive) (k : Nat) : Prop :=
  ∃ line ∈ lines[k]?, d.isOn line = true

/-- Whether a line lies in a block that was opened before it: none of the lines between carries an
end. A start that lies in a block itself opens none. -/
def Inside (lines : List Text) (k : Nat) : Prop :=
  ∃ s, ∃ _ : s < k, (Carries lines .blockStart s ∧ ¬ Inside lines s) ∧
    ∀ e, s < e → e < k → ¬ Carries lines .blockEnd e
termination_by k

def Opens (lines : List Text) (k : Nat) : Prop := Carries lines .blockStart k ∧ ¬ Inside lines k

/-- Whether a line belongs to a block, from its start through its end. -/
def Covered (lines : List Text) (k : Nat) : Prop := Opens lines k ∨ Inside lines k

/-- Whether a directive for the next line still waits at a line: only lines of blocks are between. A
directive on a line that is waited for has no effect. -/
def Awaited (lines : List Text) (k : Nat) : Prop :=
  ∃ j, ∃ _ : j < k, (Carries lines .nextLine j ∧ ¬ Covered lines j ∧ ¬ Awaited lines j) ∧
    ∀ i, j < i → i < k → Covered lines i
termination_by k

def Announces (lines : List Text) (k : Nat) : Prop :=
  Carries lines .nextLine k ∧ ¬ Covered lines k ∧ ¬ Awaited lines k

theorem carries_iff (here : lines[k]? = some line) :
    Carries lines d k ↔ d.isOn line = true := by
  simp [Carries, here]

theorem lt_of_carries (carried : Carries lines d k) : k < lines.length := by
  obtain ⟨line, here, _⟩ := carried
  exact (List.getElem?_eq_some_iff.mp here).1

theorem any_isOn_iff : lines.any d.isOn = true ↔ ∃ j, Carries lines d j := by
  simp only [List.any_eq_true, List.mem_iff_getElem?, Carries, Option.mem_def]
  constructor
  · rintro ⟨line, ⟨j, here⟩, on⟩
    exact ⟨j, line, here, on⟩
  · rintro ⟨j, line, here, on⟩
    exact ⟨line, ⟨j, here⟩, on⟩

theorem inside_iff : Inside lines k ↔ Since (Opens lines) (¬ Carries lines .blockEnd ·) k := by
  rw [Inside]
  simp only [exists_prop, Since, Opens]

theorem awaited_iff : Awaited lines k ↔ Since (Announces lines) (Covered lines) k := by
  rw [Awaited]
  simp only [exists_prop, Since, Announces]

theorem inside_succ : Inside lines (k + 1) ↔
    Opens lines k ∨ Inside lines k ∧ ¬ Carries lines .blockEnd k := by
  simp only [inside_iff, since_succ]

theorem awaited_succ : Awaited lines (k + 1) ↔
    Announces lines k ∨ Awaited lines k ∧ Covered lines k := by
  simp only [awaited_iff, since_succ]

/-- A block covers all lines from its start up to the first end behind it, which it covers too. -/
theorem covered_of_opens {s : Nat} (opens : Opens lines s) (before : s ≤ k)
    (unended : ∀ e, s < e → e < k → ¬ Carries lines .blockEnd e) : Covered lines k := by
  rcases Nat.eq_or_lt_of_le before with rfl | before
  · exact .inl opens
  · exact .inr (inside_iff.mpr ⟨s, before, opens, unended⟩)

instance (k : Nat) : Decidable (Carries lines d k) :=
  decidable_of_iff ((lines[k]?).any d.isOn = true) (by simp [Carries, Option.any_eq_true])

instance : Decidable (∀ k, ¬ Carries lines d k) :=
  decidable_of_iff (¬ lines.any d.isOn = true) (not_congr any_isOn_iff |>.trans not_exists)

instance decidableInside : (k : Nat) → Decidable (Inside lines k)
  | 0 => .isFalse (mt inside_iff.mp not_since_zero)
  | k + 1 =>
    have := decidableInside k
    decidable_of_iff ((Carries lines .blockStart k ∧ ¬ Inside lines k) ∨
      Inside lines k ∧ ¬ Carries lines .blockEnd k) inside_succ.symm

instance (k : Nat) : Decidable (Opens lines k) := inferInstanceAs (Decidable (_ ∧ _))

instance (k : Nat) : Decidable (Covered lines k) := inferInstanceAs (Decidable (_ ∨ _))

instance decidableAwaited : (k : Nat) → Decidable (Awaited lines k)
  | 0 => .isFalse (mt awaited_iff.mp not_since_zero)
  | k + 1 =>
    have := decidableAwaited k
    decidable_of_iff ((Carries lines .nextLine k ∧ ¬ Covered lines k ∧ ¬ Awaited lines k) ∨
      Awaited lines k ∧ Covered lines k) awaited_succ.symm

/-- Whether a line is one that no directive hides, unless the whole file is hidden. -/
structure Shown (lines : List Text) (k : Nat) : Prop where
  outside : ¬ Covered lines k
  unawaited : ¬ Awaited lines k
  plain : ¬ Carries lines .nextLine k
  own : ¬ Carries lines .line k

/-! ## What the scan remembers -/

namespace Hiding

/-- Whether a line that comes in a state belongs to a block. -/
def covers (h : Hiding) (line : Text) : Bool := h.block || Directive.blockStart.isOn line

theorem block_step : (h.step line).2.block = true ↔
    Directive.blockStart.isOn line = true ∧ ¬ h.block = true ∨
      h.block = true ∧ ¬ Directive.blockEnd.isOn line = true := by
  grind [step]

theorem next_step : (h.step line).2.next = true ↔
    Directive.nextLine.isOn line = true ∧ ¬ h.covers line = true ∧ ¬ h.next = true ∨
      h.next = true ∧ h.covers line = true := by
  grind [step, covers]

theorem shown_step : (h.step line).1 = true ↔
    ¬ h.covers line = true ∧ ¬ h.next = true ∧ ¬ Directive.nextLine.isOn line = true ∧
      ¬ Directive.line.isOn line = true := by
  grind [step, covers]

/-- Whether a state is the one in front of a line. -/
structure Recalls (h : Hiding) (lines : List Text) (k : Nat) : Prop where
  block : h.block = true ↔ Inside lines k
  next : h.next = true ↔ Awaited lines k

theorem recalls_start (lines : List Text) : ({} : Hiding).Recalls lines 0 where
  block := by simp [inside_iff, not_since_zero]
  next := by simp [awaited_iff, not_since_zero]

theorem Recalls.covers (recalls : h.Recalls lines k) (here : lines[k]? = some line) :
    h.covers line = true ↔ Covered lines k := by
  rw [Hiding.covers, Covered, Opens, Bool.or_eq_true, recalls.block, carries_iff here]
  tauto

theorem Recalls.step (recalls : h.Recalls lines k) (here : lines[k]? = some line) :
    (h.step line).2.Recalls lines (k + 1) where
  block := by
    rw [block_step, inside_succ, Opens, recalls.block, carries_iff here, carries_iff here]
  next := by
    rw [next_step, awaited_succ, Announces, recalls.next, recalls.covers here, carries_iff here]

theorem Recalls.shown (recalls : h.Recalls lines k) (here : lines[k]? = some line) :
    (h.step line).1 = true ↔ Shown lines k := by
  rw [shown_step, recalls.covers here, recalls.next, ← carries_iff here, ← carries_iff here]
  exact ⟨fun ⟨a, b, c, d⟩ => ⟨a, b, c, d⟩, fun ⟨a, b, c, d⟩ => ⟨a, b, c, d⟩⟩

/-- From any line on, the lines kept are those that are shown. -/
theorem Recalls.mem_keep_iff {rest : List Text} (recalls : h.Recalls lines k)
    (split : lines.drop k = rest) {i : Nat} :
    (line, i + 1) ∈ h.keep (rest.zipIdx (k + 1)) ↔
      k ≤ i ∧ lines[i]? = some line ∧ Shown lines i := by
  induction rest generalizing h k with
  | nil =>
    have short : lines.length ≤ k := List.drop_eq_nil_iff.mp split
    constructor
    · intro never
      cases never
    · rintro ⟨above, there, _⟩
      rw [List.getElem?_eq_none (Nat.le_trans short above)] at there
      cases there
  | cons first rest ih =>
    have here : lines[k]? = some first := by
      rw [← List.head?_drop, split, List.head?_cons]
    have later : lines.drop (k + 1) = rest := by
      rw [← List.tail_drop, split, List.tail_cons]
    have kept := recalls.shown here
    have further := ih (recalls.step here) later
    rw [List.zipIdx_cons, keep]
    generalize h.step first = outcome at kept further
    obtain ⟨shown, h⟩ := outcome
    cases shown with
    | false =>
      have hidden : ¬ Shown lines k := fun shown => Bool.false_ne_true (kept.mpr shown)
      refine further.trans ⟨fun ⟨above, rest⟩ => ⟨Nat.le_of_succ_le above, rest⟩, ?_⟩
      rintro ⟨above, there, shown⟩
      refine ⟨Nat.lt_of_le_of_ne above ?_, there, shown⟩
      rintro rfl
      exact hidden shown
    | true =>
      have shown : Shown lines k := kept.mp rfl
      refine List.mem_cons.trans ((or_congr_right further).trans ?_)
      constructor
      · rintro (same | ⟨above, there⟩)
        · cases same
          exact ⟨Nat.le_refl _, here, shown⟩
        · exact ⟨Nat.le_of_succ_le above, there⟩
      · rintro ⟨above, there, shown⟩
        rcases Nat.eq_or_lt_of_le above with rfl | above
        · cases here.symm.trans there
          exact .inl rfl
        · exact .inr ⟨above, there, shown⟩

theorem sublist_keep (h : Hiding) (lines : List (Text × Nat)) : (h.keep lines).Sublist lines := by
  induction lines generalizing h with
  | nil => exact .slnil
  | cons l rest ih =>
    rw [keep]
    generalize h.step l.1 = outcome
    obtain ⟨kept, h⟩ := outcome
    cases kept with
    | false => exact (ih h).cons l
    | true => exact (ih h).cons_cons l

end Hiding

/-- The lines looked at are those that no directive hides, in a file that is not hidden. -/
theorem mem_visibleLines_iff : (line, k + 1) ∈ visibleLines lines ↔
    lines[k]? = some line ∧ (∀ j, ¬ Carries lines .file j) ∧ Shown lines k := by
  rw [visibleLines]
  split
  · next hidden =>
    obtain ⟨j, carried⟩ := any_isOn_iff.mp hidden
    simp only [List.not_mem_nil, false_iff]
    rintro ⟨_, none, _⟩
    exact none j carried
  · next looked =>
    have none : ∀ j, ¬ Carries lines .file j := not_exists.mp (mt any_isOn_iff.mpr looked)
    have kept : (line, k + 1) ∈ ({} : Hiding).keep (lines.zipIdx 1) ↔
        0 ≤ k ∧ lines[k]? = some line ∧ Shown lines k :=
      (Hiding.recalls_start lines).mem_keep_iff List.drop_zero
    simp [kept, none]

end Traceability.Marker
