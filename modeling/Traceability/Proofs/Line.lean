import Mathlib.Data.List.Basic
import Traceability.Text.Line

/-!
# Texts by their lines

A text is its lines, each followed by a break, but for the last one, which may have none. What is
done to the lines of a text can therefore be done in place, and its breaks stay.
-/
namespace Traceability.Text

/-- Whether a text can stand within a line. -/
def Unbroken (t : Text) : Prop := ∀ c ∈ t, isLineBreak c = false

instance (t : Text) : Decidable (Unbroken t) := List.decidableBAll _ _

/-- Whether a text is one break where `rest` follows: a carriage return does not stand alone in
front of a line feed. -/
inductive IsBreak (rest : Text) : Text → Prop
  | pair : IsBreak rest ['\r', '\n']
  | single {c : Char} (breaks : isLineBreak c = true)
      (alone : c = '\r' → rest.head? ≠ some '\n') : IsBreak rest [c]

variable {line rest b : Text} {c : Char}

theorem unbroken_of_mem_lines {t : Text} (member : line ∈ lines t) : Unbroken line :=
  fun _ inside => not_isLineBreak_of_mem_lines member inside

theorem IsBreak.exists_head (sep : IsBreak rest b) :
    ∃ c more, b = c :: more ∧ isLineBreak c = true := by
  cases sep with
  | pair => exact ⟨'\r', ['\n'], rfl, by decide⟩
  | single breaks _ => exact ⟨_, [], rfl, breaks⟩

/-! ## The lines of a text that starts with a line -/

/-- What stands before the first break. -/
def beforeBreak (t : Text) : Text := t.takeWhile (!isLineBreak ·)

/-- The first break and all behind it. -/
def fromBreak (t : Text) : Text := t.dropWhile (!isLineBreak ·)

theorem Unbroken.all (unbroken : Unbroken line) : ∀ c ∈ line, (!isLineBreak c) = true :=
  fun c inside => by simp [unbroken c inside]

theorem Unbroken.beforeBreak_eq (unbroken : Unbroken line) : beforeBreak line = line := by
  simpa [beforeBreak] using @List.takeWhile_append_of_pos _ _ line [] unbroken.all

theorem Unbroken.fromBreak_eq (unbroken : Unbroken line) : fromBreak line = [] := by
  simpa [fromBreak] using @List.dropWhile_append_of_pos _ _ line [] unbroken.all

theorem beforeBreak_append (unbroken : Unbroken line) (sep : IsBreak rest b) :
    beforeBreak (line ++ b) = line := by
  obtain ⟨c, more, rfl, breaks⟩ := sep.exists_head
  rw [beforeBreak, List.takeWhile_append_of_pos unbroken.all]
  simp [breaks]

theorem fromBreak_append (unbroken : Unbroken line) (sep : IsBreak rest b) :
    fromBreak (line ++ b) = b := by
  obtain ⟨c, more, rfl, breaks⟩ := sep.exists_head
  rw [fromBreak, List.dropWhile_append_of_pos unbroken.all]
  simp [breaks]

theorem linesWithBreaks_cons (inner : isLineBreak c = false) (t : Text) :
    linesWithBreaks (c :: t) = consFirst c (linesWithBreaks t) := by
  rw [linesWithBreaks]
  · simp [inner]
  · rintro _ rfl
    exact absurd inner (by decide)

theorem map_consFirst (inner : isLineBreak c = false) (pieces : List Text) :
    (consFirst c pieces).map beforeBreak = consFirst c (pieces.map beforeBreak) := by
  cases pieces <;> simp [consFirst, beforeBreak, inner]

/-- A line is what stands before its break. -/
theorem lines_eq_map (t : Text) : lines t = (linesWithBreaks t).map beforeBreak := by
  induction t using lines.induct with
  | case1 => rfl
  | case2 t ih =>
    rw [lines, linesWithBreaks, List.map_cons, ih]
    rfl
  | case3 c t single breaks ih =>
    rw [lines, linesWithBreaks, if_pos breaks, if_pos breaks, List.map_cons, ih]
    · simp [beforeBreak, breaks]
    · exact single
    · exact single
  | case4 c t single inner ih =>
    have inner : isLineBreak c = false := by simpa using inner
    rw [linesWithBreaks_cons inner, map_consFirst inner, ← ih, lines]
    · simp [inner]
    · exact single

theorem IsBreak.linesWithBreaks_append (sep : IsBreak rest b) :
    linesWithBreaks (b ++ rest) = b :: linesWithBreaks rest := by
  cases sep with
  | pair => rfl
  | @single c breaks alone =>
    rw [List.singleton_append, linesWithBreaks]
    · simp [breaks]
    · rintro t rfl rfl
      exact alone rfl rfl

theorem linesWithBreaks_append (unbroken : Unbroken line) (sep : IsBreak rest b) :
    linesWithBreaks (line ++ (b ++ rest)) = (line ++ b) :: linesWithBreaks rest := by
  induction line with
  | nil => exact sep.linesWithBreaks_append
  | cons c line ih =>
    obtain ⟨inner, unbroken⟩ := List.forall_mem_cons.mp unbroken
    rw [List.cons_append, linesWithBreaks_cons inner, ih unbroken, consFirst, List.cons_append]

theorem lines_append (unbroken : Unbroken line) (sep : IsBreak rest b) :
    lines (line ++ (b ++ rest)) = line :: lines rest := by
  rw [lines_eq_map, linesWithBreaks_append unbroken sep, List.map_cons,
    beforeBreak_append unbroken sep, ← lines_eq_map]

theorem linesWithBreaks_of_unbroken (unbroken : Unbroken line) (filled : line ≠ []) :
    linesWithBreaks line = [line] := by
  induction line with
  | nil => exact absurd rfl filled
  | cons c line ih =>
    obtain ⟨inner, unbroken⟩ := List.forall_mem_cons.mp unbroken
    rw [linesWithBreaks_cons inner]
    cases line with
    | nil => rfl
    | cons d line => rw [ih unbroken (by simp), consFirst]

theorem lines_of_unbroken (unbroken : Unbroken line) (filled : line ≠ []) :
    lines line = [line] := by
  rw [lines_eq_map, linesWithBreaks_of_unbroken unbroken filled, List.map_singleton,
    unbroken.beforeBreak_eq]

theorem exists_break (t : Text) :
    Unbroken t ∨ ∃ line b rest, Unbroken line ∧ IsBreak rest b ∧ t = line ++ (b ++ rest) := by
  induction t using lines.induct with
  | case1 => exact .inl (List.forall_mem_nil _)
  | case2 t _ => exact .inr ⟨[], _, t, List.forall_mem_nil _, .pair, rfl⟩
  | case3 c t single breaks _ =>
    refine .inr ⟨[], [c], t, List.forall_mem_nil _, .single breaks fun same feed => ?_, rfl⟩
    obtain ⟨rest, rfl⟩ := List.head?_eq_some_iff.mp feed
    exact single rest same rfl
  | case4 c t _ inner ih =>
    have inner : isLineBreak c = false := by simpa using inner
    rcases ih with unbroken | ⟨line, b, rest, unbroken, sep, rfl⟩
    · exact .inl (List.forall_mem_cons.mpr ⟨inner, unbroken⟩)
    · exact .inr ⟨c :: line, b, rest, List.forall_mem_cons.mpr ⟨inner, unbroken⟩, sep, rfl⟩

/-- Induction on the lines of a text. -/
@[elab_as_elim]
theorem line_induction {motive : Text → Prop} (nil : motive [])
    (last : ∀ line, Unbroken line → line ≠ [] → motive line)
    (more : ∀ line b rest, Unbroken line → IsBreak rest b → motive rest →
      motive (line ++ (b ++ rest)))
    (t : Text) : motive t := by
  rcases exists_break t with unbroken | ⟨line, b, rest, unbroken, sep, rfl⟩
  · cases t with
    | nil => exact nil
    | cons c t => exact last _ unbroken (by simp)
  · exact more line b rest unbroken sep (line_induction nil last more rest)
termination_by t.length
decreasing_by
  rename_i shape
  obtain ⟨c, more, rfl, _⟩ := sep.exists_head
  subst shape
  simp only [List.length_append, List.length_cons]
  omega

/-! ## Numbered lines -/

theorem pairwise_zipIdx {α : Type} (l : List α) (n : Nat) :
    (l.zipIdx n).Pairwise fun x y => x.2 < y.2 := by
  have numbers : ((l.zipIdx n).map Prod.snd).Pairwise (· < ·) := by
    rw [List.zipIdx_map_snd]
    exact List.pairwise_lt_range'
  exact List.pairwise_map.mp numbers

/-! ## Lines replaced in place -/

/-- A text in which each line, with its number, is replaced by another one. -/
def mapLines (f : Nat → Text → Text) (number : Nat) (t : Text) : Text :=
  ((linesWithBreaks t).zipIdx number).flatMap fun (piece, n) =>
    f n (beforeBreak piece) ++ fromBreak piece

variable {f : Nat → Text → Text} {number : Nat}

theorem mapLines_of_unbroken (unbroken : Unbroken line) (filled : line ≠ []) :
    mapLines f number line = f number line := by
  rw [mapLines, linesWithBreaks_of_unbroken unbroken filled]
  simp [unbroken.beforeBreak_eq, unbroken.fromBreak_eq]

theorem mapLines_append (unbroken : Unbroken line) (sep : IsBreak rest b) :
    mapLines f number (line ++ (b ++ rest)) =
      f number line ++ (b ++ mapLines f (number + 1) rest) := by
  rw [mapLines, linesWithBreaks_append unbroken sep]
  simp [beforeBreak_append unbroken sep, fromBreak_append unbroken sep, mapLines]

/-- Whether a line may take the place of another one: it is one line, and it is empty where the
other one is. -/
def Replaces (new line : Text) : Prop := Unbroken new ∧ (new = [] ↔ line = [])

theorem head?_mapLines {t : Text}
    (proper : ∀ line n, (line, n) ∈ (lines t).zipIdx number → Replaces (f n line) line)
    (feed : (mapLines f number t).head? = some '\n') : t.head? = some '\n' := by
  -- A line that is not empty starts with a character that is no break.
  have inside {new line : Text} (replaces : Replaces new line) (filled : line ≠ [])
      (after : Text) : (new ++ after).head? ≠ some '\n' := by
    obtain ⟨c, new, rfl⟩ := List.exists_cons_of_ne_nil (mt replaces.2.mp filled)
    intro same
    cases same
    exact absurd (replaces.1 '\n' List.mem_cons_self) (by decide)
  induction t using line_induction with
  | nil => cases feed
  | last line unbroken filled =>
    rw [mapLines_of_unbroken unbroken filled, ← List.append_nil (f number line)] at feed
    refine absurd feed (inside (proper line number ?_) filled [])
    simp [lines_of_unbroken unbroken filled]
  | more line b rest unbroken sep _ =>
    rw [mapLines_append unbroken sep] at feed
    have replaces : Replaces (f number line) line :=
      proper line number (by simp [lines_append unbroken sep])
    by_cases filled : line = []
    · obtain ⟨c, more, rfl, _⟩ := sep.exists_head
      rw [replaces.2.mpr filled] at feed
      rw [filled]
      exact feed
    · exact absurd feed (inside replaces filled _)

theorem lines_mapLines {t : Text}
    (proper : ∀ line n, (line, n) ∈ (lines t).zipIdx number → Replaces (f n line) line) :
    lines (mapLines f number t) = ((lines t).zipIdx number).map fun (line, n) => f n line := by
  induction t using line_induction generalizing number with
  | nil => rfl
  | last line unbroken filled =>
    have replaces : Replaces (f number line) line :=
      proper line number (by simp [lines_of_unbroken unbroken filled])
    rw [mapLines_of_unbroken unbroken filled, lines_of_unbroken unbroken filled,
      lines_of_unbroken replaces.1 (mt replaces.2.mp filled)]
    rfl
  | more line b rest unbroken sep ih =>
    rw [lines_append unbroken sep, List.zipIdx_cons] at proper ⊢
    obtain ⟨replaces, proper⟩ : Replaces (f number line) line ∧
        ∀ line n, (line, n) ∈ (lines rest).zipIdx (number + 1) → Replaces (f n line) line :=
      ⟨proper line number List.mem_cons_self,
        fun line n member => proper line n (List.mem_cons_of_mem _ member)⟩
    have sep' : IsBreak (mapLines f (number + 1) rest) b := by
      cases sep with
      | pair => exact .pair
      | single breaks alone =>
        exact .single breaks fun same => mt (head?_mapLines proper) (alone same)
    rw [mapLines_append unbroken sep, lines_append replaces.1 sep', ih proper, List.map_cons]

/-! ## What belongs to one line -/

section Keyed

variable {α β ι : Type} [DecidableEq ι] {items : List α} {f : α → List β} {key : α → ι}
  {lineOf : β → ι} {a : α} {k : ι}

theorem filter_line_eq_nil (own : ∀ a ∈ items, ∀ b ∈ f a, lineOf b = key a)
    (absent : ∀ a ∈ items, key a ≠ k) : (items.flatMap f).filter (lineOf · = k) = [] := by
  simp only [List.filter_eq_nil_iff, List.mem_flatMap, decide_eq_true_eq]
  rintro b ⟨a, member, inside⟩ here
  exact absent a member ((own a member b inside).symm.trans here)

/-- Where every item has a line of its own, what belongs to the line is what the item has. -/
theorem filter_line_eq (distinct : items.Pairwise fun a b => key a ≠ key b)
    (own : ∀ a ∈ items, ∀ b ∈ f a, lineOf b = key a) (member : a ∈ items) :
    (items.flatMap f).filter (lineOf · = key a) = f a := by
  induction items with
  | nil => cases member
  | cons first items ih =>
    obtain ⟨apart, distinct⟩ := List.pairwise_cons.mp distinct
    obtain ⟨here, later⟩ := List.forall_mem_cons.mp own
    rw [List.flatMap_cons, List.filter_append]
    rcases List.mem_cons.mp member with rfl | member
    · have kept : (f a).filter (lineOf · = key a) = f a := by
        simpa [List.filter_eq_self] using here
      rw [kept, filter_line_eq_nil later fun b inside => (apart b inside).symm, List.append_nil]
    · have gone : (f first).filter (lineOf · = key a) = [] := by
        simp only [List.filter_eq_nil_iff, decide_eq_true_eq]
        exact fun b inside same => apart a member ((here b inside).symm.trans same)
      rw [gone, List.nil_append, ih distinct later member]

end Keyed

end Traceability.Text
