import Traceability.Proofs.Excerpt.Bounds
import Traceability.Proofs.Outline.Extent

/-!
# The section around a line of a spec

The bounds of the section around a line are read off a flat list of heading levels, and are still
those of the section of the outline that has the line: both stop at the next heading of the same or a
higher rank. A heading mark with one blank behind it and nothing else is a heading for the bounds
only.
-/
namespace Traceability

namespace Outline

variable {line : Text} {lines : List Text} {inside : Bool} {number : Nat}

/-- Whether a line is a heading mark alone: one to six number signs and one blank. -/
def IsBareMark (line : Text) : Prop :=
  ∃ level c, 1 ≤ level ∧ level ≤ 6 ∧ Text.isBlank c = true ∧ line = List.replicate level '#' ++ [c]

theorem isBareMark_iff :
    IsBareMark line ↔ (headingMark? line).any (fun mark => mark.2.length = 1) = true := by
  rw [Option.any_eq_true]
  constructor
  · rintro ⟨level, c, least, most, blank, rfl⟩
    exact ⟨(level, [c]), headingMark?_eq_some_iff.mpr ⟨rfl, least, most, c, [], rfl, blank⟩, rfl⟩
  · rintro ⟨⟨level, rest⟩, marked, single⟩
    obtain ⟨rfl, least, most, c, more, rfl, blank⟩ := headingMark?_eq_some_iff.mp marked
    obtain rfl : more = [] := by simpa using single
    exact ⟨level, c, least, most, blank, rfl⟩

instance : DecidablePred IsBareMark := fun _ => decidable_of_iff _ isBareMark_iff.symm

/-- Apart from marks alone, a heading mark starts a heading. -/
theorem level_headingMark?_eq (plain : ¬ IsBareMark line) :
    (headingMark? line).elim 0 Prod.fst = (heading? line).elim 0 Prod.fst := by
  rw [isBareMark_iff] at plain
  cases marked : headingMark? line with
  | none => simp [heading?, marked]
  | some mark =>
    obtain ⟨level, rest⟩ := mark
    obtain ⟨-, -, -, c, more, rfl, -⟩ := headingMark?_eq_some_iff.mp marked
    have long : ¬ (c :: more).length < 2 := by
      simpa [marked, Nat.lt_succ_iff] using plain
    simp only [heading?, marked, Option.bind_eq_bind, Option.bind_some, if_neg long]
    split <;> rfl

/-- The headings that a flat list of levels shows are those of the sections that are read. -/
theorem filter_headingLevels (plain : ∀ line ∈ lines, ¬ IsBareMark line) :
    ((LineSpan.headingLevels inside lines).zipIdx number).filter (fun x => x.1 ≠ 0) =
      (readFrom inside (lines.zipIdx (number + 1))).2.map fun s => (s.level, s.line - 1) := by
  induction lines generalizing inside number with
  | nil => rfl
  | cons line rest ih =>
    obtain ⟨here, plain⟩ := List.forall_mem_cons.mp plain
    have later (inside : Bool) : ((0 :: LineSpan.headingLevels inside rest).zipIdx number).filter
        (fun x => x.1 ≠ 0) = (readFrom inside (rest.zipIdx (number + 1 + 1))).2.map
          fun s => (s.level, s.line - 1) := by
      rw [List.zipIdx_cons, List.filter_cons_of_neg (by simp)]
      exact ih plain
    rw [List.zipIdx_cons, LineSpan.headingLevels]
    cases fence : isFence line with
    | true =>
      rw [readFrom_cons_fence fence]
      exact later _
    | false =>
      rw [readFrom_cons_open fence, level_headingMark?_eq here]
      cases inside with
      | true => exact later true
      | false =>
        cases fits : heading? line with
        | none => exact later false
        | some found =>
          have level : found.1 ≠ 0 := Nat.ne_of_gt (isHeading_of_heading? fits).least
          change ((found.1 :: LineSpan.headingLevels false rest).zipIdx number).filter _ = _
          rw [List.zipIdx_cons, List.filter_cons_of_pos (by simpa using level), ih plain]
          rfl

/-- Whether a line is the heading of a section or in its content. -/
def Section.Holds (s : Section) (n : Nat) : Prop := s.line ≤ n ∧ n ≤ s.line + s.content.length

namespace Document

/-- Whether a line is the last filled one of a section and the sections in it. -/
structure IsLastFilled (d : Document) (s : Section) (last : Nat) : Prop where
  heading_le : s.line ≤ last
  le_lastLine : last ≤ d.lastLine s
  filled : Text.allBlank (d.lineOf last) = false
  blank : ∀ n, last < n → n ≤ d.lastLine s → Text.allBlank (d.lineOf n) = true

/-- The lines below the heading of a section, those of the sections in it included. -/
def below (d : Document) (s : Section) : List Text := (d.lines.take (d.lastLine s)).drop s.line

variable {text : Text} {s : Section}

theorem lastLine_bounds (member : s ∈ (read text).nodes) :
    s.line ≤ (read text).lastLine s ∧ (read text).lastLine s ≤ (Text.lines text).length := by
  obtain ⟨found, least, -⟩ := heading_of_mem_nodes member
  have inside := (List.getElem?_eq_some_iff.mp found).1
  rw [lastLine]
  cases next : (read text).nodes.find? fun t => s.line < t.line && t.level ≤ s.level with
  | none => exact ⟨by change s.line ≤ (Text.lines text).length; omega, Nat.le_refl _⟩
  | some t =>
    obtain ⟨found', -⟩ := heading_of_mem_nodes (List.mem_of_find?_eq_some next)
    have inside' := (List.getElem?_eq_some_iff.mp found').1
    have behind : s.line < t.line ∧ t.level ≤ s.level := by simpa using List.find?_some next
    rw [Option.elim_some]
    omega

theorem allBlank_heading (member : s ∈ (read text).nodes) :
    Text.allBlank ((read text).lineOf s.line) = false := by
  obtain ⟨-, -, -, -, fits⟩ := heading_of_mem_nodes member
  obtain ⟨rest, shape⟩ := exists_sign_of_heading? fits
  rw [shape, Text.allBlank, List.all_cons, isBlank_sign, Bool.false_and]

theorem getElem?_below (member : s ∈ (read text).nodes) {i : Nat}
    (inside : s.line + i < (read text).lastLine s) :
    ((read text).below s)[i]? = some ((read text).lineOf (s.line + i + 1)) := by
  have found : (Text.lines text)[s.line + i]? = some _ :=
    List.getElem?_eq_getElem (Nat.lt_of_lt_of_le inside (lastLine_bounds member).2)
  rw [below, List.getElem?_drop, List.getElem?_take_of_lt inside]
  exact found.trans (congrArg some (lineOf_read found).symm)

/-- Without its final blank lines, a section ends with its last filled line. -/
theorem isLastFilled (member : s ∈ (read text).nodes) :
    (read text).IsLastFilled s (s.line + LineSpan.filledLength ((read text).below s)) := by
  obtain ⟨above, inside⟩ := lastLine_bounds member
  have size := LineSpan.filledLength_le ((read text).below s)
  have length : ((read text).below s).length = (read text).lastLine s - s.line := by
    rw [below, List.length_drop, List.length_take]
    exact congrArg (· - s.line) (Nat.min_eq_left inside)
  refine ⟨Nat.le_add_right _ _, by omega, ?_, fun n behind upTo => ?_⟩
  · cases kept : LineSpan.filledLength ((read text).below s) with
    | zero => exact allBlank_heading member
    | succ i =>
      obtain ⟨t, found, filled⟩ := LineSpan.exists_filled_of_filledLength kept
      rw [getElem?_below member (by omega)] at found
      cases found
      exact filled
  · obtain ⟨i, rfl⟩ : ∃ i, n = s.line + i + 1 := ⟨n - s.line - 1, by omega⟩
    refine Bool.of_not_eq_false fun filled => ?_
    have := LineSpan.lt_filledLength (getElem?_below member upTo) filled
    omega

end Document

end Outline

namespace LineSpan

open Outline Document

variable {text : Text} {s t : Outline.Section} {n : Nat}

section Plain

variable (plain : ∀ line ∈ Text.lines text, ¬ IsBareMark line)

include plain

theorem headings_of_nodes :
    (headingLevels false (Text.lines text)).zipIdx.filter (fun x => x.1 ≠ 0) =
      (read text).nodes.map fun s => (s.level, s.line - 1) :=
  (filter_headingLevels plain).trans (map_nodes_read _ (fun _ _ => rfl) text).symm

/-- The nearest heading at a line or above is that of the section that has the line. -/
theorem openedAt_eq (member : s ∈ (read text).nodes) (holds : s.Holds n) :
    openedAt (Text.lines text) (n - 1) = (s.level, s.line - 1) := by
  obtain ⟨heading, upTo⟩ := holds
  obtain ⟨-, least, -⟩ := heading_of_mem_nodes member
  obtain ⟨before, after, split⟩ := List.append_of_mem member
  have gaps := pairwise_nodes text
  rw [split, List.pairwise_append, List.pairwise_cons] at gaps
  have later : after.filter (fun t => t.line - 1 < n - 1 + 1) = [] := by
    refine List.filter_eq_nil_iff.mpr fun t member => ?_
    have := gaps.2.1.1 t member
    simp only [decide_eq_true_eq]
    omega
  have here : s.line - 1 < n - 1 + 1 := by omega
  have nearest : ((read text).nodes.filter fun t => t.line - 1 < n - 1 + 1).getLast? = some s := by
    rw [split, List.filter_append, List.filter_cons, if_pos (decide_eq_true here), later]
    exact List.getLast?_concat
  rw [openedAt, ← List.head?_filter, List.filter_reverse, List.head?_reverse, take_zipIdx,
    List.filter_comm, headings_of_nodes plain, List.filter_map, List.getLast?_map, Nat.zero_add]
  exact congrArg (fun found : Option Outline.Section =>
    (found.map fun t => (t.level, t.line - 1)).getD (6, n - 1)) nearest

/-- The next heading of a rank is the one behind the last line below the heading. -/
theorem closedAt_eq (member : s ∈ (read text).nodes) :
    closedAt (Text.lines text) s.level (s.line - 1) = (read text).lastLine s := by
  obtain ⟨-, least, -⟩ := heading_of_mem_nodes member
  have among : ((headingLevels false (Text.lines text)).zipIdx.drop (s.line - 1 + 1)).find?
      (fun x : Nat × Nat => x.1 ≠ 0 && x.1 ≤ s.level) =
        ((read text).nodes.map fun t => (t.level, t.line - 1)).find?
          fun x => s.line - 1 + 1 ≤ x.2 && x.1 ≤ s.level := by
    rw [← headings_of_nodes plain, drop_zipIdx, List.find?_filter, List.find?_filter, Nat.zero_add]
    congr 1
    funext x
    grind
  have below (t : Outline.Section) :
      decide (s.line - 1 + 1 ≤ t.line - 1) = decide (s.line < t.line) := by
    rw [decide_eq_decide]
    omega
  change Option.elim (List.find? (fun x : Nat × Nat => x.1 ≠ 0 && x.1 ≤ s.level) _) _ _ = _
  rw [among, List.find?_map, Option.elim_map, lastLine]
  simp only [Function.comp_def, below]
  rfl

/-- The bounds around a line from the first heading on are those of the section of the outline that
has the line: they reach from its heading to the last filled line of it and the sections in it. -/
theorem ofSection_outline (behind : ∃ first ∈ (read text).nodes, first.line ≤ n)
    (inside : n ≤ (Text.lines text).length) :
    ∃ s ∈ (read text).nodes, s.Holds n ∧ (∀ t ∈ (read text).nodes, t.Holds n → t = s) ∧
      s.walk.flatMap (read text).own = (read text).extent s ∧
      ∃ last, (read text).IsLastFilled s last ∧
        ofSection (Text.lines text) n = ⟨(s.line : Int) - 1, (last : Int) - 1⟩ := by
  obtain ⟨first, among, above⟩ := behind
  obtain ⟨s, member, holds⟩ := exists_mem_nodes_holding among above inside
  obtain ⟨-, least, -⟩ := heading_of_mem_nodes member
  refine ⟨s, member, holds, fun t other here => ?_, walk_lines member, _, isLastFilled member, ?_⟩
  · exact eq_of_mem_nodes other member (Nat.le_trans here.1 holds.2) (Nat.le_trans holds.1 here.2)
  · have nonempty : Text.lines text ≠ [] := List.ne_nil_of_length_pos (by have := holds.1; omega)
    have place : anchor (Text.lines text).length n = n - 1 := by
      rw [anchor]
      omega
    have opened := openedAt_eq plain member holds
    rw [← place] at opened
    rw [ofSection_eq nonempty opened, closedAt_eq plain member, Nat.sub_add_cancel least]
    change (⟨_, _ + (filledLength ((read text).below s) : Int)⟩ : LineSpan) = _
    congr 1
    · omega
    · omega

end Plain

/-- A section with sections in it, a fenced heading and blank lines before the next section. -/
def nestedSpec : Text := "intro\n# A\ntext\n## B\n```\n# C\n```\n\n## D\n\n# E\n"

theorem ofSection_outline_fenced :
    (∃ s ∈ (read nestedSpec).nodes, s.Holds 3 ∧
      (∀ t ∈ (read nestedSpec).nodes, t.Holds 3 → t = s) ∧
      s.walk.flatMap (read nestedSpec).own = (read nestedSpec).extent s ∧
      ∃ last, (read nestedSpec).IsLastFilled s last ∧
        ofSection (Text.lines nestedSpec) 3 = ⟨(s.line : Int) - 1, (last : Int) - 1⟩) ∧
    ofSection (Text.lines nestedSpec) 3 = ⟨1, 8⟩ ∧
    ofSection (Text.lines nestedSpec) 6 = ⟨3, 6⟩ :=
  ⟨ofSection_outline (by decide +kernel) (by decide +kernel) (by decide +kernel),
    by decide +kernel, by decide +kernel⟩

end LineSpan

end Traceability
