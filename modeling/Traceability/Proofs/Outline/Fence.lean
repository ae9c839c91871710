import Traceability.Proofs.Outline.Document

/-!
# Blocks between fences

A line stands outside the blocks that fences delimit when it is none of them and those above it come in
pairs. Sections start at headings outside the blocks of all fences; where fences behind blanks come in
pairs, these are the blocks of the fences at the start of their lines.
-/
namespace Traceability

namespace Outline

variable {line : Text} {lines : List Text} {i : Nat}

/-- Whether a line stands outside the blocks that some fences delimit: it is none of them, and those
above it come in pairs. -/
structure StandsOpen (fence : Text → Bool) (lines : List Text) (i : Nat) (line : Text) : Prop where
  found : lines[i]? = some line
  other : fence line = false
  even : Even ((lines.take i).countP fence)

/-- The sections of a document start at the headings outside its blocks. -/
theorem Document.exists_mem_nodes_line_iff {text : Text} :
    (∃ s ∈ (read text).nodes, s.line = i + 1) ↔
      ∃ line, StandsOpen isFence (Text.lines text) i line ∧ (heading? line).isSome = true := by
  constructor
  · rintro ⟨s, member, here⟩
    obtain ⟨j, line, place, found, other, even, fits⟩ :=
      exists_mem_nodes_iff.mp ⟨s, member, here, rfl, rfl⟩
    cases Nat.succ.inj place
    exact ⟨line, ⟨found, other, even⟩, by rw [fits]; rfl⟩
  · rintro ⟨line, ⟨found, other, even⟩, some⟩
    obtain ⟨⟨level, heading⟩, fits⟩ := Option.isSome_iff_exists.mp some
    obtain ⟨s, member, here, -⟩ :=
      exists_mem_nodes_iff.mpr ⟨i, line, rfl, found, other, even, fits⟩
    exact ⟨s, member, here⟩

/-- Whether a line is a fence without blanks in front of it. -/
def isFlushFence (line : Text) : Bool := line.startsWith fenceMark

def isIndentedFence (line : Text) : Bool := isFence line && !isFlushFence line

theorem isFence_of_isFlushFence (flush : isFlushFence line = true) : isFence line = true := by
  obtain ⟨rest, cut⟩ := Option.isSome_iff_exists.mp flush
  rw [Text.dropStem?_eq_some_iff] at cut
  have same : Text.trimStart line = line := by
    rw [cut]
    exact List.dropWhile_cons_of_neg (by decide)
  rw [isFence, same]
  exact flush

theorem countP_isFence (lines : List Text) :
    lines.countP isFence = lines.countP isFlushFence + lines.countP isIndentedFence := by
  induction lines with
  | nil => rfl
  | cons line rest ih =>
    have here : (if isFence line then 1 else 0) =
        (if isFlushFence line then 1 else 0) + (if isIndentedFence line then 1 else 0) := by
      by_cases flush : isFlushFence line = true
      · simp [isIndentedFence, flush, isFence_of_isFlushFence flush]
      · simp [isIndentedFence, flush]
    rw [List.countP_cons, List.countP_cons, List.countP_cons, ih, here]
    omega

/-- As long as indented fences come in pairs, the outline has the same blocks. -/
theorem standsOpen_isFence_iff (pairs : Even ((lines.take i).countP isIndentedFence)) :
    StandsOpen isFence lines i line ↔
      StandsOpen isFlushFence lines i line ∧ isFence line = false := by
  have even : Even ((lines.take i).countP isFence) ↔ Even ((lines.take i).countP isFlushFence) := by
    rw [countP_isFence, Nat.even_add]
    exact ⟨fun same => same.mpr pairs, fun flush => iff_of_true flush pairs⟩
  constructor
  · rintro ⟨found, other, open'⟩
    exact ⟨⟨found, Bool.of_not_eq_true (mt isFence_of_isFlushFence (by simp [other])),
      even.mp open'⟩, other⟩
  · rintro ⟨⟨found, -, open'⟩, other⟩
    exact ⟨found, other, even.mpr open'⟩

end Outline

end Traceability
