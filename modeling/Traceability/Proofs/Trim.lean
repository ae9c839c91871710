import Mathlib.Data.List.TakeWhile
import Traceability.Text.Blank

/-!
# Blanks around a text

A text is the blanks in front of it, what is between, and the blanks behind it.
-/
namespace Traceability.Text

variable {lead w t u : Text}

theorem exists_dropEndWhile (p : Char → Bool) (t : Text) :
    ∃ tail, t = dropEndWhile p t ++ tail ∧ ∀ c ∈ tail, p c = true := by
  refine ⟨(t.reverse.takeWhile p).reverse, ?_, ?_⟩
  · have parts := congrArg List.reverse (List.takeWhile_append_dropWhile (p := p) (l := t.reverse))
    rw [List.reverse_append, List.reverse_reverse] at parts
    exact parts.symm
  · intro c member
    exact List.mem_takeWhile_imp (List.mem_reverse.mp member)

theorem dropEndWhile_append {p : Char → Bool} {tail : Text} (dropped : ∀ c ∈ tail, p c = true)
    (kept : ∀ c ∈ t.getLast?, p c = false) : dropEndWhile p (t ++ tail) = t := by
  rw [dropEndWhile, List.reverse_append,
    List.dropWhile_append_of_pos fun c member => dropped c (List.mem_reverse.mp member)]
  rw [← List.head?_reverse] at kept
  cases back : t.reverse with
  | nil => rw [List.reverse_eq_nil_iff.mp back]; rfl
  | cons c rest =>
    rw [back] at kept
    rw [List.dropWhile_cons_of_neg (by simp [kept c rfl]), ← back, List.reverse_reverse]

theorem trimStart_eq (blank : ∀ c ∈ lead, isBlank c = true)
    (filled : ∀ c ∈ t.head?, isBlank c = false) : trimStart (lead ++ t) = t := by
  rw [trimStart, List.dropWhile_append_of_pos blank]
  cases t with
  | nil => rfl
  | cons c t => simp [filled c rfl]

theorem indent_eq (blank : ∀ c ∈ lead, isBlank c = true)
    (filled : ∀ c ∈ t.head?, isBlank c = false) : indent (lead ++ t) = lead.length := by
  rw [indent, List.takeWhile_append_of_pos blank]
  cases t with
  | nil => simp
  | cons c t => simp [filled c rfl]

theorem trimEnd_append (filled : w ≠ []) (full : ∀ c ∈ w, isBlank c = false) (u : Text) :
    trimEnd (w ++ u) = w ++ trimEnd u := by
  rw [trimEnd, trimEnd, dropEndWhile, dropEndWhile, List.reverse_append, List.dropWhile_append]
  have kept : w.reverse.dropWhile isBlank = w.reverse := by
    obtain ⟨c, back, shape⟩ := List.exists_cons_of_ne_nil (mt List.reverse_eq_nil_iff.mp filled)
    have member : c ∈ w := List.mem_reverse.mp (shape ▸ List.mem_cons_self)
    simp [shape, full c member]
  split
  · next empty => simp [kept, List.isEmpty_iff.mp empty]
  · simp

/-- A word without blanks at the start of a text, after blanks, is trimmed behind it only. -/
theorem trim_eq (blank : ∀ c ∈ lead, isBlank c = true) (filled : w ≠ [])
    (full : ∀ c ∈ w, isBlank c = false) (u : Text) : trim (lead ++ (w ++ u)) = w ++ trimEnd u := by
  obtain ⟨c, rest, rfl⟩ := List.exists_cons_of_ne_nil filled
  rw [trim, trimStart_eq blank, trimEnd_append filled full]
  intro d first
  cases first
  exact full c List.mem_cons_self

theorem exists_trim (t : Text) :
    ∃ lead tail, t = lead ++ (trim t ++ tail) ∧ ∀ c ∈ lead, isBlank c = true := by
  obtain ⟨tail, split, _⟩ := exists_dropEndWhile isBlank (trimStart t)
  refine ⟨t.takeWhile isBlank, tail, ?_, fun c member => List.mem_takeWhile_imp member⟩
  have parts : t.takeWhile isBlank ++ trimStart t = t := List.takeWhile_append_dropWhile
  exact parts.symm.trans (congrArg (t.takeWhile isBlank ++ ·) split)

end Traceability.Text
