import Traceability.Proofs.Marker.Line
import Traceability.Proofs.Marker.Visible

/-!
# Spans of markers

The columns of a marker are those of its identifier on its line. The markers of a text stand in the
order of their lines and columns, and no two of them have a column of a line in common.
-/
namespace Traceability.Marker

variable {tokens : List Text} {path t : Text} {m : Marker}

/-- Whether a marker stands on one of some lines, and its columns are those of its identifier. -/
structure Spans (lines : List Text) (m : Marker) : Prop where
  numbered : 1 ≤ m.line ∧ m.line ≤ lines.length
  named : m.id ≠ []
  spelled : ∃ line, lines[m.line - 1]? = some line ∧ m.start < m.stop ∧ m.stop ≤ line.length ∧
    (line.take m.stop).drop m.start = m.id

/-- Whether a marker ends before another one starts, be it on a line further up or on the same
line. -/
def Precedes (m m' : Marker) : Prop :=
  m.line < m'.line ∨ m.line = m'.line ∧ m.stop ≤ m'.start

theorem exists_line_of_mem_scan (member : m ∈ (scan tokens path t).markers) :
    ∃ line, (line, m.line) ∈ visibleLines (Text.lines t) ∧ m.StandsIn m.line 0 line := by
  rw [markers_scan] at member
  obtain ⟨⟨line, number⟩, visible, inside⟩ := List.mem_flatMap.mp member
  have stands := standsIn_of_mem_scanLine inside
  obtain rfl : m.line = number := stands.line_eq
  exact ⟨line, visible, stands⟩

theorem standsIn_of_mem_scan (member : m ∈ (scan tokens path t).markers) :
    ∃ line, (Text.lines t)[m.line - 1]? = some line ∧ m.StandsIn m.line 0 line := by
  obtain ⟨line, visible, stands⟩ := exists_line_of_mem_scan member
  exact ⟨line, (getElem?_of_mem_visibleLines visible).2, stands⟩

theorem one_le_line_of_mem_scan (member : m ∈ (scan tokens path t).markers) : 1 ≤ m.line := by
  obtain ⟨line, visible, _⟩ := exists_line_of_mem_scan member
  exact (getElem?_of_mem_visibleLines visible).1

theorem spans_of_mem_scan (member : m ∈ (scan tokens path t).markers) :
    m.Spans (Text.lines t) := by
  have positive := one_le_line_of_mem_scan member
  obtain ⟨line, here, stands⟩ := standsIn_of_mem_scan member
  obtain ⟨inside, _⟩ := List.getElem?_eq_some_iff.mp here
  have filled : m.id ≠ [] := stands.spelled.ne_nil
  obtain ⟨before, after, shape, start, stop⟩ := stands.split
  rw [Nat.zero_add] at start stop
  have long : 0 < m.id.length := List.length_pos_iff.mpr filled
  refine ⟨⟨positive, by omega⟩, filled, line, here, by omega, ?_, ?_⟩
  · rw [shape, stop, List.length_append, List.length_append]
    omega
  · rw [shape, stop, start, ← List.append_assoc, ← List.length_append, List.take_left,
      List.drop_left]

/-- The markers of a text stand in the order of their lines, and on a line in that of their
columns. -/
theorem pairwise_scan (tokens : List Text) (path t : Text) :
    (scan tokens path t).markers.Pairwise Precedes := by
  rw [markers_scan, List.pairwise_flatMap]
  constructor
  · intro l _
    refine (pairwise_scanLine tokens path l.1 l.2).imp_of_mem
      fun {m m'} member member' behind => .inr ⟨?_, behind⟩
    have own := (standsIn_of_mem_scanLine member).line_eq
    have own' := (standsIn_of_mem_scanLine member').line_eq
    exact own.trans own'.symm
  · refine (pairwise_visibleLines (Text.lines t)).imp fun {l l'} below m member m' member' => .inl ?_
    rw [(standsIn_of_mem_scanLine member).line_eq, (standsIn_of_mem_scanLine member').line_eq]
    exact below

theorem Spans.start_lt_stop {lines : List Text} (spans : m.Spans lines) : m.start < m.stop := by
  obtain ⟨_, _, filled, _⟩ := spans.spelled
  exact filled

end Traceability.Marker
