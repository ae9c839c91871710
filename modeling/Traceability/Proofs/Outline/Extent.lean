import Traceability.Proofs.Outline.Document

/-!
# The lines of a section

A section and the sections in it are a stretch of the lines of their document: it starts at the
heading and ends in front of the next heading of the same or a higher rank. The lines that a section
has of its own, its heading and its content, follow one another without a gap, and every line from the
first heading on belongs to one section.
-/
namespace Traceability

namespace Outline

variable {s t : Section} {sections before after forest : List Section} {inside : Bool}
  {lines : List Text} {number : Nat}

/-! ## Sections in a section -/

section Blind

variable {α : Type} {f : Section → α} (blind : ∀ s children, f { s with children := children } = f s)

include blind

/-- The sections at the front of nested ones that are deeper than a level are, with all in them, those
at the front of the sections before they are nested. -/
theorem map_walkAll_takeWhile_nest (level : Nat) (sections : List Section) :
    (walkAll ((nest sections).takeWhile (level < ·.level))).map f =
      (sections.takeWhile (level < ·.level)).map f := by
  induction sections with
  | nil => rfl
  | cons s rest ih =>
    have unfolded : nest (s :: rest) =
        planted s (nest rest) :: (nest rest).dropWhile (s.level < ·.level) := rfl
    have same : (planted s (nest rest)).level = s.level := rfl
    rw [unfolded]
    by_cases deeper : level < s.level
    · have split : (nest rest).takeWhile (level < ·.level) =
          (nest rest).takeWhile (s.level < ·.level) ++
            ((nest rest).dropWhile (s.level < ·.level)).takeWhile (level < ·.level) := by
        conv_lhs =>
          rw [← List.takeWhile_append_dropWhile (p := (s.level < ·.level)) (l := nest rest)]
        refine List.takeWhile_append_of_pos fun a member => ?_
        have below : s.level < a.level := by simpa using List.mem_takeWhile_imp member
        simpa using Nat.lt_trans deeper below
      rw [List.takeWhile_cons, List.takeWhile_cons, same, if_pos (decide_eq_true deeper),
        if_pos (decide_eq_true deeper), walkAll, walk_eq, List.cons_append, List.map_cons,
        List.map_cons, ← ih, split, walkAll_append]
      exact congrArg (· :: _) (blind s _)
    · rw [List.takeWhile_cons, List.takeWhile_cons, same, if_neg (mt of_decide_eq_true deeper),
        if_neg (mt of_decide_eq_true deeper)]
      rfl

/-- The walk through a planted section goes through the deeper sections behind it. -/
theorem map_walk_planted_nest (s : Section) (after : List Section) :
    (planted s (nest after)).walk.map f = (s :: after.takeWhile (s.level < ·.level)).map f := by
  rw [walk_eq, List.map_cons, List.map_cons, ← map_walkAll_takeWhile_nest blind]
  exact congrArg (· :: _) (blind s _)

end Blind

theorem exists_planted_of_mem (member : s ∈ walkAll (nest sections)) :
    ∃ before t after, sections = before ++ t :: after ∧ s = planted t (nest after) := by
  induction sections with
  | nil => cases member
  | cons t rest ih =>
    rw [walkAll_nest_cons] at member
    rcases List.mem_cons.mp member with rfl | later
    · exact ⟨[], t, rest, rfl, rfl⟩
    · obtain ⟨before, u, after, rfl, rfl⟩ := ih later
      exact ⟨t :: before, u, after, rfl, rfl⟩

/-! ## Lines -/

/-- From the first heading on, every line is one of the own lines of a section. -/
theorem exists_mem_readFrom_holding {n : Nat}
    (behind : number + (readFrom inside (lines.zipIdx number)).1.length ≤ n)
    (before : n < number + lines.length) :
    ∃ s ∈ (readFrom inside (lines.zipIdx number)).2, s.line ≤ n ∧ n ≤ s.line + s.content.length := by
  induction lines generalizing inside number with
  | nil =>
    rw [List.length_nil] at before
    omega
  | cons line rest ih =>
    rw [List.length_cons] at before
    rw [List.zipIdx_cons] at behind ⊢
    have later (inside : Bool)
        (behind : number + 1 + (readFrom inside (rest.zipIdx (number + 1))).1.length ≤ n) :=
      ih behind (by omega)
    cases fence : isFence line with
    | true =>
      rw [readFrom_cons_fence fence] at behind ⊢
      rw [List.length_cons] at behind
      exact later _ (by omega)
    | false =>
      rw [readFrom_cons_open fence] at behind ⊢
      split at behind
      · rw [List.length_cons] at behind
        exact later _ (by omega)
      · next level heading _ =>
        rw [List.length_nil] at behind
        by_cases own : n ≤ number + (readFrom inside (rest.zipIdx (number + 1))).1.length
        · exact ⟨_, List.mem_cons_self, behind, own⟩
        · obtain ⟨s, member, holds⟩ := later inside (by omega)
          exact ⟨s, List.mem_cons_of_mem _ member, holds⟩

namespace Document

/-- The lines that a section has of its own: its heading and its content. -/
def own (d : Document) (s : Section) : List Text := d.lineOf s.line :: s.content

/-- The number of the last line below a heading: the one in front of the next heading of the same or
a higher rank, or the last line of the document. -/
def lastLine (d : Document) (s : Section) : Nat :=
  (d.nodes.find? fun t => s.line < t.line && t.level ≤ s.level).elim d.lines.length (·.line - 1)

/-- The lines from the heading of a section to the last line below it. -/
def extent (d : Document) (s : Section) : List Text :=
  (d.lines.take (d.lastLine s)).drop (s.line - 1)

variable {text : Text}

theorem exists_unnested_of_mem (member : s ∈ (read text).nodes) :
    ∃ before t after, unnested text = before ++ t :: after ∧ s = planted t (nest after) :=
  exists_planted_of_mem member

theorem lines_read (text : Text) :
    Text.lines text = (read text).preamble ++ (unnested text).flatMap (read text).own := by
  have tells : ∀ x ∈ (Text.lines text).zipIdx 1, (read text).lineOf x.2 = x.1 :=
    fun x member => lineOf_read (List.mem_zipIdx_iff_le_and_getElem?_sub.mp member).2
  have whole := flatMap_readFrom false tells
  rw [List.zipIdx_map_fst] at whole
  exact whole.symm

theorem pairwise_nodes (text : Text) :
    (read text).nodes.Pairwise fun s t => s.line + s.content.length < t.line := by
  have gaps : ((unnested text).map fun s => (s.line, s.content.length)).Pairwise fun x y =>
      x.1 + x.2 < y.1 :=
    List.pairwise_map.mpr (pairwise_readFrom false (Text.lines text) 1)
  rw [← map_nodes_read _ fun _ _ => rfl] at gaps
  exact List.pairwise_map.mp gaps

theorem line_of_unnested (split : unnested text = before ++ t :: after) :
    t.line = ((read text).preamble ++ before.flatMap (read text).own).length + 1 := by
  rw [Nat.add_comm]
  exact line_of_readFrom (fun s => List.length_cons) split

/-- What does not depend on the sections in a section tells the next heading of the same or a higher
rank among the sections before they are nested. -/
theorem find?_nodes (text : Text) (line level : Nat) :
    ((read text).nodes.find? fun t => line < t.line && t.level ≤ level).map (·.line) =
      ((unnested text).find? fun t => line < t.line && t.level ≤ level).map (·.line) := by
  have told := map_nodes_read (fun s => (s.line, s.level)) (fun _ _ => rfl) text
  have found := congrArg (fun l => (l.find? fun x => line < x.1 && x.2 ≤ level).map Prod.fst) told
  simp only [List.find?_map, Option.map_map] at found
  exact found

theorem lastLine_read (text : Text) (s : Section) : (read text).lastLine s =
    ((unnested text).find? fun t => s.line < t.line && t.level ≤ s.level).elim
      (Text.lines text).length (·.line - 1) := by
  have found := congrArg (Option.elim · (Text.lines text).length (· - 1))
    (find?_nodes text s.line s.level)
  simp only [Option.elim_map] at found
  exact found

theorem lastLine_planted (split : unnested text = before ++ t :: after) :
    (read text).lastLine (planted t (nest after)) = ((read text).preamble ++
      (before ++ t :: after.takeWhile (t.level < ·.level)).flatMap (read text).own).length := by
  have ordered := ordered_unnested text
  rw [split, List.pairwise_append, List.pairwise_cons] at ordered
  obtain ⟨-, ⟨behind, -⟩, inFront⟩ := ordered
  have parts := (List.takeWhile_append_dropWhile (p := (t.level < ·.level)) (l := after)).symm
  have deep : ∀ u ∈ after.takeWhile (t.level < ·.level), t.level < u.level := fun u member => by
    simpa using List.mem_takeWhile_imp member
  have shallow := List.head?_dropWhile_not (t.level < ·.level) after
  generalize after.takeWhile (t.level < ·.level) = inner at parts deep ⊢
  generalize after.dropWhile (t.level < ·.level) = outer at parts shallow
  have whole : unnested text = (before ++ t :: inner) ++ outer := by
    rw [split, parts, List.append_assoc, List.cons_append]
  have skipped : (before ++ t :: inner).find? (fun u => t.line < u.line && u.level ≤ t.level) =
      none := by
    simp only [List.find?_eq_none, Bool.and_eq_true, decide_eq_true_eq, List.mem_append,
      List.mem_cons]
    rintro u (first | rfl | later) ⟨below, rank⟩
    · exact absurd (inFront u first t List.mem_cons_self) (Nat.lt_asymm below)
    · exact Nat.lt_irrefl _ below
    · exact absurd (deep u later) (Nat.not_lt_of_le rank)
  rw [lastLine_read, whole]
  change (((before ++ t :: inner) ++ outer).find? fun u => t.line < u.line && u.level ≤ t.level).elim
    _ _ = _
  rw [List.find?_append, skipped, Option.none_or]
  cases outer with
  | nil =>
    rw [List.append_nil] at whole
    rw [List.find?_nil, Option.elim_none, lines_read, whole]
  | cons u more =>
    have member : u ∈ after := by simp [parts]
    have rank : u.level ≤ t.level := Nat.le_of_not_lt (of_decide_eq_false shallow)
    have next : (u :: more).find? (fun u => t.line < u.line && u.level ≤ t.level) = some u :=
      List.find?_cons_of_pos (by simpa using ⟨behind u member, rank⟩)
    rw [next, Option.elim_some, line_of_unnested whole, Nat.add_sub_cancel]

/-- A section and the sections in it are a stretch of the lines of their document. -/
theorem walk_lines (member : s ∈ (read text).nodes) :
    s.walk.flatMap (read text).own = (read text).extent s := by
  obtain ⟨before, t, after, split, rfl⟩ := exists_unnested_of_mem member
  have start : (planted t (nest after)).line - 1 =
      ((read text).preamble ++ before.flatMap (read text).own).length := by
    change t.line - 1 = _
    rw [line_of_unnested split, Nat.add_sub_cancel]
  have behind : after.flatMap (read text).own =
      (after.takeWhile (t.level < ·.level)).flatMap (read text).own ++
        (after.dropWhile (t.level < ·.level)).flatMap (read text).own := by
    rw [← List.flatMap_append, List.takeWhile_append_dropWhile]
  rw [extent, lastLine_planted split, start, List.flatMap, map_walk_planted_nest fun _ _ => rfl]
  have lines : (read text).lines = ((read text).preamble ++ before.flatMap (read text).own) ++
      ((t :: after.takeWhile (t.level < ·.level)).flatMap (read text).own ++
        (after.dropWhile (t.level < ·.level)).flatMap (read text).own) := by
    change Text.lines text = _
    rw [lines_read, split]
    simp [behind]
  rw [lines, ← List.append_assoc, List.take_left', List.drop_left']
  · rfl
  · rfl
  · simp

/-- The heading of a section is a line outside fenced blocks. -/
theorem heading_of_mem_nodes (member : s ∈ (read text).nodes) :
    (Text.lines text)[s.line - 1]? = some ((read text).lineOf s.line) ∧ 1 ≤ s.line ∧
      isFence ((read text).lineOf s.line) = false ∧
      Even (((Text.lines text).take (s.line - 1)).countP isFence) ∧
      heading? ((read text).lineOf s.line) = some (s.level, s.heading) := by
  obtain ⟨i, line, place, found, other, even, fits⟩ :=
    exists_mem_nodes_iff.mp ⟨s, member, rfl, rfl, rfl⟩
  have index : s.line - 1 = i := by rw [place, Nat.add_sub_cancel]
  rw [← index] at found even
  rw [lineOf_read found]
  exact ⟨found, place ▸ Nat.le_add_left 1 i, other, even, fits⟩

/-- Two sections have no line in common. -/
theorem eq_of_mem_nodes (first : s ∈ (read text).nodes) (second : t ∈ (read text).nodes)
    (reaches : s.line ≤ t.line + t.content.length) (reaches' : t.line ≤ s.line + s.content.length) :
    s = t := by
  have gaps := List.pairwise_iff_getElem.mp (pairwise_nodes text)
  obtain ⟨i, inside, rfl⟩ := List.mem_iff_getElem.mp first
  obtain ⟨j, inside', rfl⟩ := List.mem_iff_getElem.mp second
  rcases Nat.lt_trichotomy i j with before | rfl | behind
  · exact absurd (gaps i j inside inside' before) (Nat.not_lt_of_le reaches')
  · rfl
  · exact absurd (gaps j i inside' inside behind) (Nat.not_lt_of_le reaches)

/-- Every line from a heading on is the heading or in the content of a section. -/
theorem exists_mem_nodes_holding {n : Nat} (first : t ∈ (read text).nodes) (behind : t.line ≤ n)
    (last : n ≤ (Text.lines text).length) :
    ∃ s ∈ (read text).nodes, s.line ≤ n ∧ n ≤ s.line + s.content.length := by
  have told := map_nodes_read (fun s => (s.line, s.content.length)) (fun _ _ => rfl) text
  obtain ⟨before, u, after, split, rfl⟩ := exists_unnested_of_mem first
  have place := line_of_unnested split
  rw [List.length_append] at place
  have inside : 1 + (read text).preamble.length ≤ n := by
    change u.line ≤ n at behind
    omega
  obtain ⟨s, member, holds⟩ :=
    exists_mem_readFrom_holding inside (Nat.lt_one_add_iff.mpr last)
  have found : (s.line, s.content.length) ∈
      (read text).nodes.map fun s => (s.line, s.content.length) := by
    rw [told]
    exact List.mem_map_of_mem member
  obtain ⟨s', member', same⟩ := List.mem_map.mp found
  obtain ⟨line, length⟩ := Prod.mk.inj same
  exact ⟨s', member', by rwa [line, length]⟩

end Document

end Outline

end Traceability
