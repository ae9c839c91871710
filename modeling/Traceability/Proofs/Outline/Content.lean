import Traceability.Outline.Content
import Traceability.Proofs.Outline.Extent

/-!
# Taking lists and tables out of a document

Sections are read one by one, each from outside a fenced block, and still give the items, the tables
and the fences that one pass over the lines of their document would find: a section starts outside
fenced blocks, and its heading is neither an item nor a row of a table.
-/
namespace Traceability

namespace Outline

variable {line heading : Text} {level : Nat}

/-! ## Headings are no items and no rows -/

theorem listItem?_of_heading? (fits : heading? line = some (level, heading)) :
    listItem? line = none := by
  obtain ⟨rest, rfl⟩ := exists_sign_of_heading? fits
  have front : Text.trimStart ('#' :: rest) = '#' :: rest :=
    List.dropWhile_cons_of_neg (by simp [isBlank_sign])
  have unmarked : afterListMark? ('#' :: rest) = none := by
    have digits : ('#' :: rest).takeWhile Text.isDigit = [] := List.takeWhile_cons_of_neg (by decide)
    simp [afterListMark?, digits]
  simp [listItem?, front, unmarked]

theorem isRow_of_heading? (fits : heading? line = some (level, heading)) : isRow line = false := by
  obtain ⟨rest, rfl⟩ := exists_sign_of_heading? fits
  have trimmed : Text.trim ('#' :: rest) = '#' :: Text.trimEnd rest :=
    @Text.trim_eq [] ['#'] (by simp) (by simp) (by simp [isBlank_sign]) rest
  simp [isRow, trimmed]

/-! ## Reading in one pass -/

theorem outside_of_start {inside : Bool} {found : Nat × Text}
    (start : (if inside = true then none else heading? line) = some found) :
    inside = false ∧ heading? line = some found := by
  cases inside with
  | true => cases start
  | false => exact ⟨rfl, start⟩

theorem walkAll_eq_flatMap (forest : List Section) :
    walkAll forest = forest.flatMap Section.walk := by
  induction forest with
  | nil => rfl
  | cons s rest ih => rw [walkAll, ih, List.flatMap_cons]

section Pass

variable (inside : Bool) (numbered : List (Text × Nat))

/-- Without the lines before the first heading, the same sections are read. -/
theorem readFrom_drop : readFrom false (numbered.drop (readFrom inside numbered).1.length) =
    ([], (readFrom inside numbered).2) := by
  fun_induction readFrom inside numbered with
  | case1 => rfl
  | case2 inside line number rest fence content sections read ih => rwa [read] at ih
  | case3 inside line number rest other content sections read plain ih => rwa [read] at ih
  | case4 inside line number rest other content sections read level heading start ih =>
    obtain ⟨rfl, fits⟩ := outside_of_start start
    rw [List.length_nil, List.drop_zero, readFrom, if_neg other, read, fits]
    rfl

/-- The items that sections hold one by one are those of a pass over their lines. -/
theorem items_readFrom : (unfenced inside (numbered.map (·.1))).filterMap listItem? =
    (unfenced inside (readFrom inside numbered).1).filterMap listItem? ++
      (readFrom inside numbered).2.flatMap fun s => itemsIn s.content := by
  fun_induction readFrom inside numbered with
  | case1 => rfl
  | case2 inside line number rest fence content sections read ih =>
    rw [read] at ih
    rw [List.map_cons, unfenced, unfenced, if_pos fence, if_pos fence, ih]
  | case3 inside line number rest other content sections read plain ih =>
    rw [read] at ih
    rw [List.map_cons, unfenced, unfenced, if_neg other, if_neg other]
    split
    · exact ih
    · rw [List.filterMap_cons, List.filterMap_cons]
      cases listItem? line with
      | none => exact ih
      | some item => exact congrArg (item :: ·) ih
  | case4 inside line number rest other content sections read level heading start ih =>
    obtain ⟨rfl, fits⟩ := outside_of_start start
    rw [read] at ih
    calc (unfenced false (line :: rest.map (·.1))).filterMap listItem?
      _ = (unfenced false (rest.map (·.1))).filterMap listItem? := by
        rw [unfenced, if_neg other, if_neg Bool.false_ne_true,
          List.filterMap_cons_none (listItem?_of_heading? fits)]
      _ = itemsIn content ++ sections.flatMap fun s => itemsIn s.content := ih

/-- The tables of sections one by one are those of a pass over their lines: a heading ends the table
above it, as the end of the content does. -/
theorem tables_readFrom (block : List (List Text)) :
    tablesFrom inside block (numbered.map (·.1)) =
      tablesFrom inside block (readFrom inside numbered).1 ++
        (readFrom inside numbered).2.flatMap fun s => tablesIn s.content := by
  fun_induction readFrom inside numbered generalizing block with
  | case1 => simp
  | case2 inside line number rest fence content sections read ih =>
    rw [read] at ih
    rw [List.map_cons, tablesFrom, tablesFrom, if_pos fence, if_pos fence, ih, List.append_assoc]
  | case3 inside line number rest other content sections read plain ih =>
    rw [read] at ih
    rw [List.map_cons, tablesFrom, tablesFrom, if_neg other, if_neg other]
    split
    · exact ih _
    · rw [ih, List.append_assoc]
  | case4 inside line number rest other content sections read level heading start ih =>
    obtain ⟨rfl, fits⟩ := outside_of_start start
    have apart : ¬ ((!false) && isRow line) = true := by simp [isRow_of_heading? fits]
    rw [read] at ih
    calc tablesFrom false block (line :: rest.map (·.1))
      _ = (tableOf? block.reverse).toList ++ tablesFrom false [] (rest.map (·.1)) := by
        rw [tablesFrom, if_neg other, if_neg apart]
      _ = (tableOf? block.reverse).toList ++
          (tablesIn content ++ sections.flatMap fun s => tablesIn s.content) :=
        congrArg (_ ++ ·) (ih [])

end Pass

namespace Document

variable {text : Text} {s : Section}

/-- The lines from the first heading on. -/
def body (d : Document) : List Text := d.sections.head?.elim [] fun s => d.lines.drop (s.line - 1)

theorem body_read (text : Text) :
    (read text).body = (Text.lines text).drop (read text).preamble.length := by
  have sections : (read text).sections = nest (unnested text) := rfl
  cases split : unnested text with
  | nil =>
    rw [body, sections, split, lines_read, split, List.flatMap_nil, List.append_nil,
      List.drop_length]
    rfl
  | cons t after =>
    have first : t.line = ((read text).preamble ++ [].flatMap (read text).own).length + 1 :=
      line_of_unnested split
    rw [List.flatMap_nil, List.append_nil] at first
    rw [body, sections, split]
    change (Text.lines text).drop (t.line - 1) = _
    rw [first, Nat.add_sub_cancel]

/-- From the first heading on, the sections of a document are read and nothing else. -/
theorem exists_readFrom_body (text : Text) : ∃ numbered : List (Text × Nat),
    numbered.map (·.1) = (read text).body ∧ readFrom false numbered = ([], unnested text) := by
  refine ⟨_, ?_, readFrom_drop false ((Text.lines text).zipIdx 1)⟩
  rw [List.map_drop, List.zipIdx_map_fst, body_read]
  rfl

theorem flatMap_walk_sections {α : Type} (f : Section → List α)
    (blind : ∀ s children, f { s with children := children } = f s) (text : Text) :
    (read text).sections.flatMap (fun s => s.walk.flatMap f) = (unnested text).flatMap f := by
  rw [← List.flatMap_assoc, ← walkAll_eq_flatMap]
  exact congrArg List.flatten (map_nodes_read f blind text)

/-- The own lines of a section are the lines from its heading on. -/
theorem own_prefix (member : s ∈ (read text).nodes) :
    (read text).own s <+: (read text).lines.drop (s.line - 1) := by
  have front : (read text).own s <+: (read text).extent s := by
    rw [← walk_lines member, walk_eq, List.flatMap_cons]
    exact List.prefix_append _ _
  refine front.trans ?_
  rw [extent, List.drop_take]
  exact List.take_prefix _ _

/-- Behind a line of a section it is fenced as it would be if the document began behind the heading
of the section. -/
theorem fencedBehind_content (member : s ∈ (read text).nodes) {k : Nat}
    (inside : k ≤ s.content.length) : fencedBehind false (s.content.take k) =
      fencedBehind false ((read text).lines.take (s.line + k)) := by
  obtain ⟨-, least, other, even, -⟩ := heading_of_mem_nodes member
  have front : (read text).lines.take (s.line + k) =
      (Text.lines text).take (s.line - 1) ++ ((read text).lineOf s.line :: s.content.take k) := by
    obtain ⟨behind, shape⟩ := own_prefix member
    have place : s.line + k = (s.line - 1) + (k + 1) := by omega
    rw [place, List.take_add, ← shape, own, List.cons_append, List.take_succ_cons,
      List.take_append_of_le_length inside]
    rfl
  have outside := fencedBehind_eq_false_iff.mpr even
  rw [front, fencedBehind, fencedBehind, List.foldl_append, List.foldl_cons]
  rw [fencedBehind] at outside
  rw [outside, other]
  rfl

theorem hasFence_iff (member : s ∈ (read text).nodes) :
    s.hasFence = true ↔ ∃ line ∈ (read text).extent s, isFence line = true := by
  have among : ∀ n ∈ s.walk, n ∈ (read text).nodes := fun n => mem_walkAll_of_mem_walk member
  rw [← walk_lines member, Section.hasFence, List.any_eq_true]
  constructor
  · rintro ⟨n, below, fences⟩
    obtain ⟨line, content, fence⟩ := List.any_eq_true.mp fences
    exact ⟨line, List.mem_flatMap.mpr ⟨n, below, List.mem_cons_of_mem _ content⟩, fence⟩
  · rintro ⟨line, inside, fence⟩
    obtain ⟨n, below, own⟩ := List.mem_flatMap.mp inside
    rcases List.mem_cons.mp own with rfl | content
    · -- a heading is no fence
      obtain ⟨-, -, other, -⟩ := heading_of_mem_nodes (among n below)
      cases other.symm.trans fence
    · exact ⟨n, below, List.any_eq_true.mpr ⟨line, content, fence⟩⟩

/-- Taken out section by section, a document gives the items and the tables that one pass over its
lines from the first heading on gives: headings are neither items nor rows. A section has a fence if
one stands in its lines or in those of the sections in it, and what follows a line of its content is
fenced as in the document. -/
theorem sections_extract (text : Text) :
    (read text).sections.flatMap Section.listItems = itemsIn (read text).body ∧
    (read text).sections.flatMap Section.tables = tablesIn (read text).body ∧
    (∀ line found, heading? line = some found → listItem? line = none ∧ isRow line = false) ∧
    ∀ s ∈ (read text).nodes,
      s.walk.flatMap (read text).own = (read text).extent s ∧
      (s.hasFence = true ↔ ∃ line ∈ (read text).extent s, isFence line = true) ∧
      ∀ k ≤ s.content.length, fencedBehind false (s.content.take k) =
        fencedBehind false ((read text).lines.take (s.line + k)) := by
  obtain ⟨numbered, lines, split⟩ := exists_readFrom_body text
  refine ⟨?_, ?_, fun line found fits => ?_, fun s member => ?_⟩
  · have pass := items_readFrom false numbered
    rw [lines, split] at pass
    exact (flatMap_walk_sections _ (fun _ _ => rfl) text).trans pass.symm
  · have pass := tables_readFrom false numbered []
    rw [lines, split] at pass
    exact (flatMap_walk_sections _ (fun _ _ => rfl) text).trans pass.symm
  · exact ⟨listItem?_of_heading? fits, isRow_of_heading? fits⟩
  · exact ⟨walk_lines member, hasFence_iff member, fun k => fencedBehind_content member⟩

end Document

end Outline

end Traceability
