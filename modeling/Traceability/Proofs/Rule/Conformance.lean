import Traceability.Command.Readers
import Traceability.Proofs.Rule.Reader
import Traceability.Rule.Conformance

/-!
# Judging with rules that have been read

Judging documents with rules whose patterns can be read by themselves comes upon no pattern that cannot
be used, but for a heading that opens with flags.
-/
namespace Traceability

open PatternNode

section Loaded

variable [CharacterNames] {p : Text} {u : UnusablePattern}

theorem PatternNode.exists_use {flags : PatternFlags} (readable : ∃ node, read flags p = .ok node) :
    ∃ node, use flags p = .ok node := by
  obtain ⟨node, read⟩ := readable
  exact ⟨node, by rw [use, read]⟩

theorem RuleCondition.exists_holds {c : RuleCondition} (readable : c.Readable) (heading : Text) :
    ∃ b, c.holds heading = .ok b := by
  obtain ⟨here, notHere⟩ := c
  have occurs {p : Text} (readable : PatternNode.Readable p) : ∃ b,
      (PatternNode.use {} p).map (fun node => node.occursIn heading) = .ok b := by
    obtain ⟨node, read⟩ := exists_use readable
    exact ⟨_, by rw [read]; rfl⟩
  cases notHere with
  | none =>
    cases here with
    | none => exact ⟨true, rfl⟩
    | some p =>
      obtain ⟨fits, found⟩ := occurs (readable.1 p rfl)
      exact ⟨fits, by simp only [holds, found]; cases fits <;> rfl⟩
  | some p' =>
    obtain ⟨b, found'⟩ := occurs (readable.2 p' rfl)
    cases here with
    | none => exact ⟨!b, by simp only [holds, found']; rfl⟩
    | some p =>
      obtain ⟨fits, found⟩ := occurs (readable.1 p rfl)
      cases fits with
      | false => exact ⟨false, by simp only [holds, found]; rfl⟩
      | true => exact ⟨!b, by simp only [holds, found, found']; rfl⟩

/-- Whether a heading pattern cannot be used for a whole heading as it begins with flags. -/
def HeadingPattern.Late (p : Text) (u : UnusablePattern) : Prop :=
  OpensWithFlags p ∧ ∃ position, u = ⟨enclosed p, ⟨.lateGlobalFlags, position⟩⟩

theorem HeadingPattern.late_of_test (readable : isLiteral p ∨ Readable p)
    (failed : test p = .error u) : Late p u := by
  unfold test at failed
  split at failed
  · cases failed
  · next other =>
    rcases (readable.resolve_left other).enclosed with usable | ⟨opens, position, late⟩
    · obtain ⟨node, read⟩ := exists_use usable
      change (use {} (enclosed p)).map _ = _ at failed
      rw [read] at failed
      cases failed
    · change (use {} (enclosed p)).map _ = _ at failed
      rw [use, late] at failed
      cases failed
      exact ⟨opens, position, rfl⟩

namespace Conformance

variable {ctx : Context} {s : Outline.Section}

theorem exists_judgeDemand {d : Demand} (readable : d.Readable) :
    ∃ findings, judgeDemand ctx s d = .ok findings := by
  cases d with
  | pattern p label description required prohibited =>
    obtain ⟨node, read⟩ := exists_use (Readable.multiline readable)
    cases prohibited with
    | true => exact ⟨_, by rw [judgeDemand, judgePattern, read]; rfl⟩
    | false => exact ⟨_, by rw [judgeDemand, judgePattern, read]; rfl⟩
  | list p least label =>
    obtain ⟨node, read⟩ := exists_use readable
    rw [judgeDemand, judgeList]
    by_cases none : s.listItems = []
    · exact ⟨_, by rw [if_pos none]; rfl⟩
    · exact ⟨_, by rw [if_neg none, read]; rfl⟩
  | table columns leastRows heading => exact ⟨_, rfl⟩
  | codeBlock label => exact ⟨_, rfl⟩
  | mention text required => exact ⟨_, rfl⟩

theorem exists_judgeContent {r : ContentRule} (readable : r.Readable) :
    ∃ findings, judgeContent ctx s r = .ok findings := by
  obtain ⟨demand, condition⟩ := r
  have judged (applies : Bool) : ∃ findings, (if applies then judgeDemand ctx s demand
      else pure [] : Judgement (List Finding)) = .ok findings := by
    cases applies with
    | false => exact ⟨[], rfl⟩
    | true => exact exists_judgeDemand readable.demand
  cases condition with
  | none => exact judged true
  | some c =>
    obtain ⟨applies, held⟩ := RuleCondition.exists_holds (readable.condition c rfl) s.heading
    obtain ⟨findings, done⟩ := judged applies
    exact ⟨findings, by simp only [judgeContent, held]; exact done⟩

mutual

theorem late_of_judgeSections {rules : List SectionRule} {sections : List Outline.Section}
    (readable : ∀ r ∈ SectionRule.walkAll rules, r.Readable)
    (failed : judgeSections ctx rules sections = .error u) :
    ∃ r ∈ SectionRule.walkAll rules, HeadingPattern.Late r.heading u := by
  cases rules with
  | nil => cases failed
  | cons rule rest =>
    rw [judgeSections] at failed
    rw [SectionRule.walkAll] at readable ⊢
    obtain ⟨own, others⟩ := List.forall_mem_append.mp readable
    rcases bind_eq_error_iff.mp failed with here | ⟨_, _, failed⟩
    · obtain ⟨r, member, late⟩ := late_of_judgeRule own here
      exact ⟨r, List.mem_append_left _ member, late⟩
    · rcases bind_eq_error_iff.mp failed with there | ⟨_, _, never⟩
      · obtain ⟨r, member, late⟩ := late_of_judgeSections others there
        exact ⟨r, List.mem_append_right _ member, late⟩
      · cases never

theorem late_of_judgeRule {rule : SectionRule} {sections : List Outline.Section}
    (readable : ∀ r ∈ rule.walk, r.Readable)
    (failed : judgeRule ctx rule sections = .error u) :
    ∃ r ∈ rule.walk, HeadingPattern.Late r.heading u := by
  obtain ⟨heading, level, required, repeatable, description, content, children⟩ := rule
  rw [judgeRule] at failed
  rw [SectionRule.walk] at readable ⊢
  obtain ⟨own, below⟩ := List.forall_mem_cons.mp readable
  rcases bind_eq_error_iff.mp failed with here | ⟨test, _, failed⟩
  · exact ⟨_, List.mem_cons_self, HeadingPattern.late_of_test own.heading here⟩
  · dsimp only at failed
    split at failed
    · cases failed
    · cases failed
    · rcases bind_eq_error_iff.mp failed with there | ⟨_, _, never⟩
      · obtain ⟨s, _, there⟩ := exists_of_mapM_eq_error there
        rcases bind_eq_error_iff.mp there with unread | ⟨_, _, there⟩
        · obtain ⟨c, member, unread⟩ := exists_of_mapM_eq_error unread
          obtain ⟨findings, read⟩ := exists_judgeContent (own.content c member)
          rw [read] at unread
          cases unread
        · rcases bind_eq_error_iff.mp there with there | ⟨_, _, never⟩
          · obtain ⟨r, member, late⟩ := late_of_judgeSections below there
            exact ⟨r, List.mem_cons_of_mem _ member, late⟩
          · cases never
      · cases never

end

end Conformance

end Loaded

/-! ## A heading by a pattern -/

namespace Conformance

def headingPayload (pattern : Text) : Value :=
  .table [("target-files", .text "*.md"),
    ("sections", .list [.table [("heading", .text pattern), ("level", .int 1),
      ("contains", .list [.table [("pattern", .text "(?i)todo"), ("prohibited", .bool true)]])]])]

def overview : Spec.Document := .read [] "a.md" "# overview x\nTODO\n"

/-- A heading pattern that gives a character by name. -/
def namedHeading : Text := "[Oo]ver.*\\N\x7bSPACE\x7dx"

end Conformance

end Traceability
