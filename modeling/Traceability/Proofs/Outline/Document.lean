import Mathlib.Algebra.Ring.Parity
import Traceability.Proofs.Line
import Traceability.Proofs.Outline.Nesting
import Traceability.Proofs.Trim

/-!
# Outlines of documents

Reading a document loses no line: its preamble and its sections in their order, each with the line of
its heading, are its lines. Its sections are the lines outside fenced blocks that match the pattern of
headings, nested by their levels.
-/
namespace Traceability

namespace Outline

open Text (isBlank)

/-- Whether a line matches the pattern of headings: one to six number signs, blanks, the text of the
heading, and behind it blanks, number signs and blanks, each of them or not. -/
structure IsHeading (level : Nat) (heading line : Text) : Prop where
  least : 1 ≤ level
  most : level ≤ 6
  filled : heading ≠ []
  parts : ∃ blanks gap closing tail,
    line = List.replicate level '#' ++ (blanks ++ (heading ++ (gap ++ (closing ++ tail)))) ∧
      blanks ≠ [] ∧ (∀ c ∈ blanks, isBlank c = true) ∧ (∀ c ∈ gap, isBlank c = true) ∧
      (∀ c ∈ closing, c = '#') ∧ ∀ c ∈ tail, isBlank c = true

theorem isBlank_sign : isBlank '#' = false := by decide

theorem headingMark?_eq_some_iff {line rest : Text} {level : Nat} :
    headingMark? line = some (level, rest) ↔ line = List.replicate level '#' ++ rest ∧
      1 ≤ level ∧ level ≤ 6 ∧ ∃ c more, rest = c :: more ∧ isBlank c = true := by
  constructor
  · intro marked
    unfold headingMark? at marked
    dsimp only at marked
    split at marked
    · next fits =>
      cases marked
      simp only [Bool.and_eq_true, decide_eq_true_eq, Option.any_eq_true] at fits
      obtain ⟨⟨least, most⟩, c, first, blank⟩ := fits
      have marks : line.takeWhile (· = '#') = List.replicate (signs line) '#' := by
        refine List.eq_replicate_iff.mpr ⟨rfl, ?_⟩
        intro d member
        simpa using List.mem_takeWhile_imp member
      have parts : line = line.takeWhile (· = '#') ++ line.drop (signs line) := by
        conv_lhs => rw [← List.take_append_drop (signs line) line]
        rw [signs, ← List.prefix_iff_eq_take.mp (List.takeWhile_prefix _)]
      rw [marks] at parts
      obtain ⟨more, shape⟩ := List.head?_eq_some_iff.mp first
      exact ⟨parts, least, most, c, more, shape, blank⟩
    · cases marked
  · rintro ⟨rfl, least, most, c, more, rfl, blank⟩
    have other : c ≠ '#' := by
      rintro rfl
      cases blank.symm.trans isBlank_sign
    have count : signs (List.replicate level '#' ++ c :: more) = level := by
      rw [signs, List.takeWhile_append_of_pos (by simp), List.takeWhile_cons_of_neg (by simp [other])]
      simp
    have behind : (List.replicate level '#' ++ c :: more).drop level = c :: more := by
      simp
    simp only [headingMark?, count, behind]
    simp [least, most, blank]

theorem exists_dropClosingSigns (t : Text) : ∃ gap closing tail,
    t = dropClosingSigns t ++ (gap ++ (closing ++ tail)) ∧ (∀ c ∈ gap, isBlank c = true) ∧
      (∀ c ∈ closing, c = '#') ∧ ∀ c ∈ tail, isBlank c = true := by
  obtain ⟨tail, outer, blankTail⟩ := Text.exists_dropEndWhile isBlank t
  obtain ⟨closing, middle, signs⟩ :=
    Text.exists_dropEndWhile (· = '#') (Text.dropEndWhile isBlank t)
  obtain ⟨gap, inner, blankGap⟩ := Text.exists_dropEndWhile isBlank
    (Text.dropEndWhile (· = '#') (Text.dropEndWhile isBlank t))
  refine ⟨gap, closing, tail, ?_, blankGap, by simpa using signs, blankTail⟩
  calc t = Text.dropEndWhile isBlank t ++ tail := outer
    _ = Text.dropEndWhile (· = '#') (Text.dropEndWhile isBlank t) ++ closing ++ tail := by
      rw [← middle]
    _ = dropClosingSigns t ++ gap ++ closing ++ tail := congrArg (· ++ closing ++ tail) inner
    _ = _ := by simp

theorem isHeading_of_heading? {line heading : Text} {level : Nat}
    (read : heading? line = some (level, heading)) : IsHeading level heading line := by
  simp only [heading?, Option.bind_eq_bind, Option.bind_eq_some_iff, Prod.exists] at read
  obtain ⟨level', rest, marked, read⟩ := read
  obtain ⟨rfl, least, most, first, more, rfl, blank⟩ := headingMark?_eq_some_iff.mp marked
  have skipped : ∀ c ∈ (first :: more).takeWhile isBlank, isBlank c = true :=
    fun c member => List.mem_takeWhile_imp member
  split at read
  · next c body behind =>
    cases read
    obtain ⟨gap, closing, tail, shape, blankGap, signs, blankTail⟩ := exists_dropClosingSigns body
    refine ⟨least, most, List.cons_ne_nil _ _, (first :: more).takeWhile isBlank, gap, closing, tail,
      ?_, ?_, skipped, blankGap, signs, blankTail⟩
    · rw [List.cons_append, ← shape, ← behind, Text.trimStart, List.takeWhile_append_dropWhile]
    · rw [List.takeWhile_cons_of_pos blank]
      exact List.cons_ne_nil _ _
  · next behind =>
    -- all behind the signs is blank: the last blank is the text
    split at read
    · cases read
    · next long =>
      cases read
      have all := List.dropWhile_eq_nil_iff.mp behind
      have some : first :: more ≠ [] := List.cons_ne_nil _ _
      rw [List.getLast?_eq_some_getLast some, Option.toList_some]
      refine ⟨least, most, List.cons_ne_nil _ _, (first :: more).dropLast, [], [], [], ?_, ?_, ?_,
        by simp, by simp, by simp⟩
      · simp only [List.append_nil, List.dropLast_concat_getLast]
      · rw [← List.length_pos_iff, List.length_dropLast]
        omega
      · intro c member
        exact all c (List.dropLast_subset _ member)

theorem exists_sign_of_heading? {line heading : Text} {level : Nat}
    (fits : heading? line = some (level, heading)) : ∃ rest, line = '#' :: rest := by
  obtain ⟨least, -, -, blanks, gap, closing, tail, rfl, -⟩ := isHeading_of_heading? fits
  obtain ⟨n, rfl⟩ := Nat.exists_eq_add_of_le' least
  exact ⟨_, rfl⟩

/-- Every line that matches the pattern of headings is read as a heading. -/
theorem exists_heading?_of_isHeading {line heading : Text} {level : Nat}
    (fits : IsHeading level heading line) : ∃ text, heading? line = some (level, text) := by
  obtain ⟨least, most, filled, blanks, gap, closing, tail, shape, some, blank, _⟩ := fits
  obtain ⟨first, more, rfl⟩ := List.exists_cons_of_ne_nil some
  obtain ⟨c, text, rfl⟩ := List.exists_cons_of_ne_nil filled
  have marked := headingMark?_eq_some_iff.mpr
    ⟨shape, least, most, first, _, rfl, blank first List.mem_cons_self⟩
  simp only [heading?, marked, Option.bind_eq_bind, Option.bind_some]
  split
  · exact ⟨_, rfl⟩
  · have long : ¬ (first :: more ++ (c :: text ++ (gap ++ (closing ++ tail)))).length < 2 := by
      rw [List.length_append, List.length_cons, List.length_append, List.length_cons]
      omega
    exact ⟨_, if_neg long⟩

/-- Whether what follows some lines is fenced; `inside` tells it of what precedes them. -/
def fencedBehind (inside : Bool) (lines : List Text) : Bool :=
  lines.foldl (fun fenced line => fenced != isFence line) inside

theorem fencedBehind_eq (inside : Bool) (lines : List Text) :
    fencedBehind inside lines = (inside != decide (Odd (lines.countP isFence))) := by
  induction lines generalizing inside with
  | nil => simp [fencedBehind]
  | cons line rest ih =>
    have step : fencedBehind inside (line :: rest) = fencedBehind (inside != isFence line) rest :=
      rfl
    rw [step, ih, List.countP_cons]
    cases fence : isFence line with
    | false => simp
    | true =>
      have turn : decide (Odd (rest.countP isFence + 1)) = !decide (Odd (rest.countP isFence)) := by
        rw [← decide_not, decide_eq_decide, Nat.odd_add_one]
      rw [if_pos rfl, turn]
      cases inside <;> simp

/-- Outside fenced blocks the fences above come in pairs. -/
theorem fencedBehind_eq_false_iff {lines : List Text} :
    fencedBehind false lines = false ↔ Even (lines.countP isFence) := by
  rw [fencedBehind_eq, ← Nat.not_odd_iff_even]
  simp

variable {inside : Bool} {line : Text} {lines : List Text} {t : Section}
  {before after : List Section} {number : Nat}

theorem readFrom_cons_fence {number : Nat} {rest : List (Text × Nat)} (fence : isFence line = true) :
    readFrom inside ((line, number) :: rest) =
      (line :: (readFrom (!inside) rest).1, (readFrom (!inside) rest).2) := by
  rw [readFrom, if_pos fence]

/-- What becomes of a line that is no fence. -/
theorem readFrom_cons_open {number : Nat} {rest : List (Text × Nat)}
    (other : isFence line = false) :
    readFrom inside ((line, number) :: rest) = match if inside then none else heading? line with
      | none => (line :: (readFrom inside rest).1, (readFrom inside rest).2)
      | some (level, heading) =>
        ([], ⟨heading, level, number, (readFrom inside rest).1, []⟩ :: (readFrom inside rest).2) := by
  rw [readFrom, other]
  rfl

/-- Reading loses no line, whatever tells the line of a number. -/
theorem flatMap_readFrom (inside : Bool) {numbered : List (Text × Nat)} {lineOf : Nat → Text}
    (tells : ∀ x ∈ numbered, lineOf x.2 = x.1) :
    (readFrom inside numbered).1 ++
      (readFrom inside numbered).2.flatMap (fun s => lineOf s.line :: s.content) =
        numbered.map (·.1) := by
  induction numbered generalizing inside with
  | nil => rfl
  | cons first rest ih =>
    obtain ⟨line, number⟩ := first
    obtain ⟨here, tells⟩ := List.forall_mem_cons.mp tells
    cases fence : isFence line with
    | true => rw [readFrom_cons_fence fence, List.cons_append, ih (!inside) tells, List.map_cons]
    | false =>
      rw [readFrom_cons_open fence]
      split
      · rw [List.cons_append, ih inside tells, List.map_cons]
      · rw [List.nil_append, List.flatMap_cons, List.cons_append, ih inside tells, List.map_cons]
        exact congrArg (· :: _) here

/-- A section starts behind the lines before the first heading and the lines that the sections before
it have of their own. -/
theorem line_of_readFrom {own : Section → List Text}
    (sized : ∀ s, (own s).length = s.content.length + 1)
    (split : (readFrom inside (lines.zipIdx number)).2 = before ++ t :: after) :
    t.line = number + ((readFrom inside (lines.zipIdx number)).1 ++ before.flatMap own).length := by
  induction lines generalizing inside number before with
  | nil => simp [readFrom] at split
  | cons line rest ih =>
    rw [List.zipIdx_cons] at split ⊢
    have further {content : List Text} {before : List Section} (place : t.line =
        number + 1 + (content ++ before.flatMap own).length) :
        t.line = number + (line :: content ++ before.flatMap own).length := by
      rw [place, List.cons_append, List.length_cons]
      omega
    cases fence : isFence line with
    | true =>
      rw [readFrom_cons_fence fence] at split ⊢
      exact further (ih split)
    | false =>
      rw [readFrom_cons_open fence] at split ⊢
      split at split
      · exact further (ih split)
      · -- the heading of a section: of the one asked for, or of the first of those before it
        cases before with
        | nil =>
          cases split
          simp
        | cons first before =>
          obtain ⟨rfl, later⟩ := List.cons_eq_cons.mp split
          rw [ih later, List.nil_append, List.flatMap_cons, List.length_append, List.length_append,
            sized]
          dsimp only
          omega

/-- The own lines of a section end before the next section starts. -/
theorem pairwise_readFrom (inside : Bool) (lines : List Text) (number : Nat) :
    (readFrom inside (lines.zipIdx number)).2.Pairwise fun s t =>
      s.line + s.content.length < t.line := by
  induction lines generalizing inside number with
  | nil => exact .nil
  | cons line rest ih =>
    rw [List.zipIdx_cons]
    cases fence : isFence line with
    | true =>
      rw [readFrom_cons_fence fence]
      exact ih _ _
    | false =>
      rw [readFrom_cons_open fence]
      split
      · exact ih _ _
      · refine List.pairwise_cons.mpr ⟨fun u member => ?_, ih _ _⟩
        obtain ⟨before, after, split⟩ := List.append_of_mem member
        have place : u.line = number + 1 + ((readFrom inside (rest.zipIdx (number + 1))).1 ++
            before.flatMap fun s => [] :: s.content).length := line_of_readFrom (fun s => rfl) split
        rw [List.length_append] at place
        dsimp only
        omega

/-- The sections that are read start at the headings outside fenced blocks. -/
theorem exists_mem_readFrom_iff {number n level : Nat} {heading : Text} :
    (∃ s ∈ (readFrom inside (lines.zipIdx number)).2,
      s.line = n ∧ s.level = level ∧ s.heading = heading) ↔
    ∃ i, n = number + i ∧ fencedBehind inside (lines.take i) = false ∧
      ∃ line ∈ lines[i]?, isFence line = false ∧ heading? line = some (level, heading) := by
  induction lines generalizing inside number with
  | nil => simp [readFrom]
  | cons first rest ih =>
    have behind (i : Nat) : fencedBehind inside ((first :: rest).take (i + 1)) =
        fencedBehind (inside != isFence first) (rest.take i) := rfl
    have next (i : Nat) : (n = number + (i + 1)) = (n = number + 1 + i) := by
      rw [Nat.add_right_comm number 1 i, Nat.add_assoc]
    rw [List.zipIdx_cons, ← Nat.or_exists_add_one]
    simp only [behind, next, List.getElem?_cons_succ, List.getElem?_cons_zero, Nat.add_zero,
      List.take_zero]
    cases fence : isFence first with
    | true =>
      rw [readFrom_cons_fence fence, ih]
      simp [fence]
    | false =>
      rw [readFrom_cons_open fence]
      cases inside with
      | true =>
        rw [← ih]
        simp [fencedBehind]
      | false =>
        rw [← ih]
        cases read : heading? first with
        | none => simp [fence, read]
        | some found =>
          simp only [fence, read, List.mem_cons, exists_eq_or_imp, Option.mem_def, Option.some.injEq,
            exists_eq_left', Bool.false_eq_true, ↓reduceIte, fencedBehind, List.foldl_nil, true_and,
            Prod.ext_iff]
          refine or_congr ⟨fun here => ?_, fun here => ?_⟩ Iff.rfl
          · exact ⟨here.1.symm, here.2.1, here.2.2⟩
          · exact ⟨here.1.symm, here.2.1, here.2.2⟩

/-- Whether the line of a number, counted from one, matches the pattern of headings outside fenced
blocks: it is no fence, and the fences above it come in pairs. -/
def IsHeadingAt (lines : List Text) (number : Nat) : Prop :=
  ∃ i line, number = i + 1 ∧ lines[i]? = some line ∧ isFence line = false ∧
    Even ((lines.take i).countP isFence) ∧ ∃ level heading, IsHeading level heading line

namespace Document

/-- The sections of a document in the order of a walk. -/
def nodes (d : Document) : List Section := walkAll d.sections

/-- The line of a number, counted from one. -/
def lineOf (d : Document) (number : Nat) : Text := d.lines.getD (number - 1) []

/-- The sections of a text before they are nested. -/
def unnested (text : Text) : List Section := (readFrom false ((Text.lines text).zipIdx 1)).2

theorem map_nodes_read {α : Type} (f : Section → α)
    (blind : ∀ s children, f { s with children := children } = f s) (text : Text) :
    (read text).nodes.map f = (unnested text).map f :=
  map_walkAll_nest f blind (unnested text)

theorem lineOf_read {text line : Text} {number : Nat}
    (found : (Text.lines text)[number - 1]? = some line) : (read text).lineOf number = line := by
  rw [lineOf, List.getD_eq_getElem?_getD]
  exact congrArg (Option.getD · []) found

theorem ordered_unnested (text : Text) : (unnested text).Pairwise (·.line < ·.line) :=
  (pairwise_readFrom false (Text.lines text) 1).imp (Nat.lt_of_le_of_lt (Nat.le_add_right _ _))

theorem nested_read (text : Text) : Nested (read text).sections :=
  nested_nest (ordered_unnested text)

theorem exists_mem_nodes_iff {text : Text} {number level : Nat} {heading : Text} :
    (∃ s ∈ (read text).nodes, s.line = number ∧ s.level = level ∧ s.heading = heading) ↔
    ∃ i line, number = i + 1 ∧ (Text.lines text)[i]? = some line ∧ isFence line = false ∧
      Even (((Text.lines text).take i).countP isFence) ∧ heading? line = some (level, heading) := by
  have same : (∃ s ∈ (read text).nodes, s.line = number ∧ s.level = level ∧ s.heading = heading) ↔
      (number, level, heading) ∈ (read text).nodes.map fun s => (s.line, s.level, s.heading) := by
    simp [eq_comm]
  rw [same, map_nodes_read _ fun _ _ => rfl]
  have read := @exists_mem_readFrom_iff false (Text.lines text) 1 number level heading
  simp only [fencedBehind_eq_false_iff] at read
  simp only [unnested, List.mem_map, Prod.mk.injEq, read, Option.mem_def]
  constructor
  · rintro ⟨i, rfl, even, line, found, other, fits⟩
    exact ⟨i, line, Nat.add_comm 1 i, found, other, even, fits⟩
  · rintro ⟨i, line, rfl, found, other, even, fits⟩
    exact ⟨i, Nat.add_comm i 1, even, line, found, other, fits⟩

/-- The outline of a text holds all of its lines, its sections are nested by their levels, and they are
the lines outside fenced blocks that match the pattern of headings. -/
theorem read_outlines (text : Text) :
    (read text).preamble ++
        (read text).nodes.flatMap (fun s => (read text).lineOf s.line :: s.content) =
      Text.lines text ∧
    Nested (read text).sections ∧
    (∀ p ∈ (read text).nodes, ∀ c ∈ p.children, c ∈ (read text).nodes ∧ p.level < c.level) ∧
    (∀ number, (∃ s ∈ (read text).nodes, s.line = number) ↔
      IsHeadingAt (Text.lines text) number) ∧
    ∀ s ∈ (read text).nodes, IsHeading s.level s.heading ((read text).lineOf s.line) := by
  refine ⟨?_, nested_read text, ?_, ?_, ?_⟩
  · have own : ∀ x ∈ (Text.lines text).zipIdx 1, (read text).lineOf x.2 = x.1 :=
      fun x member => lineOf_read (List.mem_zipIdx_iff_le_and_getElem?_sub.mp member).2
    have whole := flatMap_readFrom false own
    rw [List.zipIdx_map_fst] at whole
    rw [List.flatMap, map_nodes_read _ fun _ _ => rfl]
    exact whole
  · intro p parent c child
    have member := mem_walkAll_of_mem_children parent child
    exact ⟨member, (((nested_read text).child_iff p parent c member).mp child).2.1⟩
  · intro number
    constructor
    · rintro ⟨s, member, here⟩
      obtain ⟨i, line, place, found, other, even, fits⟩ :=
        exists_mem_nodes_iff.mp ⟨s, member, here, rfl, rfl⟩
      exact ⟨i, line, place, found, other, even, _, _, isHeading_of_heading? fits⟩
    · rintro ⟨i, line, place, found, other, even, level, _, fits⟩
      obtain ⟨heading, fits⟩ := exists_heading?_of_isHeading fits
      obtain ⟨s, member, here, _⟩ :=
        exists_mem_nodes_iff.mpr ⟨i, line, place, found, other, even, fits⟩
      exact ⟨s, member, here⟩
  · intro s member
    obtain ⟨i, line, place, found, _, _, fits⟩ :=
      exists_mem_nodes_iff.mp ⟨s, member, rfl, rfl, rfl⟩
    have here : (read text).lineOf s.line = line := by
      apply lineOf_read
      rw [place]
      exact found
    rw [here]
    exact isHeading_of_heading? fits

end Document

end Outline

end Traceability
