import Mathlib.Data.List.Forall2
import Traceability.Command.Readers
import Traceability.Proofs.Cut
import Traceability.Proofs.Outline.Fence
import Traceability.Proofs.Results
import Traceability.Rule.Conformance

/-!
# Prohibited words

Words that a rule file prohibits are looked for outside blocks, and each is reported once, at the first
line that has it. Blocks are delimited by fences at the start of their lines here; those of the outline
are the same as long as fences behind blanks come in pairs.
-/
namespace Traceability

namespace Conformance

open Outline

variable {line : Text} {lines : List Text} {inside : Bool} {number k : Nat}

/-! ## Open lines -/

theorem openLines_sublist (inside : Bool) (numbered : List (Text × Nat)) :
    (openLines inside numbered).Sublist numbered := by
  fun_induction openLines inside numbered with
  | case1 => exact .slnil
  | case2 inside line number rest fence ih => exact ih.cons _
  | case3 line number rest other ih => exact ih.cons _
  | case4 inside line number rest other out ih => exact ih.cons_cons _

/-- The lines that are looked through are those outside blocks. -/
theorem mem_openLines_iff : (line, k) ∈ openLines inside (lines.zipIdx number) ↔
    ∃ i, k = number + i ∧ lines[i]? = some line ∧ isFlushFence line = false ∧
      (inside = true ↔ Odd ((lines.take i).countP isFlushFence)) := by
  induction lines generalizing inside number with
  | nil => simp [openLines]
  | cons first rest ih =>
    have next (i : Nat) : (k = number + (i + 1)) = (k = number + 1 + i) := by
      rw [Nat.add_right_comm number 1 i, Nat.add_assoc]
    rw [List.zipIdx_cons, ← Nat.or_exists_add_one, openLines]
    simp only [next, List.getElem?_cons_succ, List.getElem?_cons_zero, Nat.add_zero,
      List.take_zero, List.take_succ_cons, List.countP_cons, List.countP_nil]
    by_cases flush : first.startsWith fenceMark = true
    · have fence : isFlushFence first = true := flush
      have turn (n : Nat) : (inside = true ↔ Odd (n + 1)) ↔ ((!inside) = true ↔ Odd n) := by
        rw [Nat.odd_add_one]
        cases inside <;> simp
      rw [if_pos flush, ih, or_iff_right]
      · simp only [if_pos fence, turn]
      · rintro ⟨-, same, other, -⟩
        cases same
        cases fence.symm.trans other
    · have other : isFlushFence first = false := Bool.of_not_eq_true flush
      rw [if_neg flush]
      simp only [other, Bool.false_eq_true, if_false, Nat.add_zero]
      cases inside with
      | true => rw [if_pos rfl, ih, or_iff_right (by simp)]
      | false =>
        rw [if_neg Bool.false_ne_true, List.mem_cons, ih]
        refine or_congr ?_ Iff.rfl
        constructor
        · intro same
          cases same
          exact ⟨rfl, rfl, other, by simp⟩
        · rintro ⟨rfl, same, -⟩
          cases same
          rfl

theorem mem_openLines_read_iff : (line, k) ∈ openLines false (lines.zipIdx 1) ↔
    ∃ i, k = 1 + i ∧ StandsOpen isFlushFence lines i line := by
  have even (n : Nat) : (false = true ↔ Odd n) ↔ Even n := by
    rw [← Nat.not_odd_iff_even]
    simp
  simp only [mem_openLines_iff, even]
  exact exists_congr fun i => and_congr Iff.rfl
    ⟨fun ⟨found, other, even⟩ => ⟨found, other, even⟩,
      fun stands => ⟨stands.found, stands.other, stands.even⟩⟩

/-! ## Reports -/

/-- The warning that a word is found in a line, counted from zero. -/
def prohibition (ctx : Context) (word : Text) (i : Nat) : Finding :=
  { severity := .warning
    code := .prohibited
    message := "Prohibited formatting '" ++ word ++ "' found"
    path := ctx.path
    line := some ((i + 1 : Nat) : Int)
    ruleSource := some ctx.source }

/-- Whether findings are what a prohibited word has to be reported with: the warning at the first line
with the word outside the blocks that some fences delimit, or nothing if there is no such line. -/
inductive ReportsFirst (fence : Text → Bool) (ctx : Context) (lines : List Text) (word : Text) :
    List Finding → Prop
  | nowhere (free : ∀ i line, StandsOpen fence lines i line → ¬ word <:+: line) :
      ReportsFirst fence ctx lines word []
  | first {i : Nat} {line : Text} (stands : StandsOpen fence lines i line) (has : word <:+: line)
      (free : ∀ j < i, ∀ line, StandsOpen fence lines j line → ¬ word <:+: line) :
      ReportsFirst fence ctx lines word [prohibition ctx word i]

theorem reportsFirst_judgeProhibited (ctx : Context) (lines : List Text) (word : Text) :
    ReportsFirst isFlushFence ctx lines word (judgeProhibited ctx lines word) := by
  have order : (openLines false (lines.zipIdx 1)).Pairwise fun x y => x.2 < y.2 :=
    (Text.pairwise_zipIdx lines 1).sublist (openLines_sublist false _)
  rw [judgeProhibited]
  split
  · next none =>
    refine .nowhere fun i line stands has => ?_
    have among := mem_openLines_read_iff.mpr ⟨i, rfl, stands⟩
    exact List.find?_eq_none.mp none _ among (Text.includes_iff_infix.mpr has)
  · next line k found =>
    obtain ⟨has, before, after, split, others⟩ := List.find?_eq_some_iff_append.mp found
    obtain ⟨i, rfl, stands⟩ := mem_openLines_read_iff.mp (List.mem_of_find?_eq_some found)
    rw [Nat.add_comm 1 i]
    refine .first stands (Text.includes_iff_infix.mp has) fun j above line' stands' has' => ?_
    have among := mem_openLines_read_iff.mpr ⟨j, rfl, stands'⟩
    rw [split] at among order
    -- a line above the one that is found stands in front of it, where no line has the word
    rcases List.mem_append.mp among with front | behind
    · simpa [Text.includes_iff_infix.mpr has'] using others _ front
    · have later := (List.pairwise_cons.mp (List.pairwise_append.mp order).2.1).1
      rcases List.mem_cons.mp behind with same | behind
      · have := congrArg Prod.snd same
        dsimp only at this
        omega
      · have := later _ behind
        dsimp only at this
        omega

/-! ## Findings on sections -/

/-- Whether all that a judgement finds names the rule it is about. -/
def NamesRules (j : Judgement (List Finding)) : Prop :=
  ∀ findings, j = .ok findings → ∀ f ∈ findings, f.rule ≠ none

section NamesRules

variable {α : Type} {ctx : Context} {s : Section}

theorem namesRules_nil : NamesRules (.ok []) := by
  intro findings done
  cases done
  exact List.forall_mem_nil _

theorem namesRules_singleton {f : Finding} (names : f.rule ≠ none) : NamesRules (.ok [f]) := by
  intro findings done
  cases done
  exact List.forall_mem_singleton.mpr names

theorem namesRules_ite {c : Prop} [Decidable c] {f : Finding} (names : f.rule ≠ none) :
    NamesRules (.ok (if c then [f] else [])) := by
  split
  · exact namesRules_singleton names
  · exact namesRules_nil

theorem namesRules_unless {c : Prop} [Decidable c] {f : Finding} (names : f.rule ≠ none) :
    NamesRules (.ok (if c then [] else [f])) := by
  split
  · exact namesRules_nil
  · exact namesRules_singleton names

theorem namesRules_bind {x : Judgement α} {g : α → Judgement (List Finding)}
    (each : ∀ a, NamesRules (g a)) : NamesRules (x >>= g) := by
  intro findings done
  obtain ⟨a, -, done⟩ := bind_eq_ok_iff.mp done
  exact each a findings done

theorem NamesRules.append {j k : Judgement (List Finding)} (first : NamesRules j)
    (second : NamesRules k) :
    NamesRules (do let findings ← j; pure (findings ++ (← k))) := by
  intro findings done
  obtain ⟨own, here, done⟩ := bind_eq_ok_iff.mp done
  obtain ⟨more, there, done⟩ := bind_eq_ok_iff.mp done
  cases done
  exact List.forall_mem_append.mpr ⟨first own here, second more there⟩

theorem NamesRules.mapM {l : List α} {g : α → Judgement (List Finding)}
    (each : ∀ a, NamesRules (g a)) :
    NamesRules (do let findings ← l.mapM g; pure findings.flatten) := by
  intro findings done
  obtain ⟨parts, all, done⟩ := bind_eq_ok_iff.mp done
  cases done
  intro f member
  obtain ⟨part, among, inside⟩ := List.mem_flatten.mp member
  obtain ⟨a, -, here⟩ := (mem_of_mapM all).mp among
  exact each a part here f inside

theorem namesRules_judgeTable (columns : List Text) (least : Nat) (name : Option Text) :
    NamesRules (.ok (judgeTable ctx s columns least name)) := by
  rw [judgeTable]
  split
  · exact namesRules_singleton nofun
  · split
    · exact namesRules_singleton nofun
    · split
      · exact namesRules_singleton nofun
      · exact namesRules_nil

variable [CharacterNames]

theorem namesRules_judgeDemand (d : Demand) : NamesRules (judgeDemand ctx s d) := by
  cases d with
  | pattern pattern label description required prohibited =>
    refine namesRules_bind fun node => ?_
    cases prohibited with
    | true => exact namesRules_ite nofun
    | false => exact namesRules_ite nofun
  | list pattern least label =>
    rw [judgeDemand, judgeList]
    dsimp only
    split
    · exact namesRules_bind fun count => namesRules_ite nofun
    · exact namesRules_bind fun node => namesRules_bind fun count => namesRules_ite nofun
  | table columns least name => exact namesRules_judgeTable columns least name
  | codeBlock label => exact namesRules_unless nofun
  | mention text required => exact namesRules_unless nofun

theorem namesRules_judgeContent (r : ContentRule) : NamesRules (judgeContent ctx s r) := by
  have judged (applies : Bool) : NamesRules (if applies then judgeDemand ctx s r.demand
      else pure []) := by
    cases applies with
    | true => exact namesRules_judgeDemand r.demand
    | false => exact namesRules_nil
  rw [judgeContent]
  split
  · exact namesRules_bind judged
  · exact namesRules_bind judged

mutual

theorem namesRules_judgeSections (rules : List SectionRule) (sections : List Section) :
    NamesRules (judgeSections ctx rules sections) := by
  cases rules with
  | nil => exact namesRules_nil
  | cons rule rest =>
    rw [judgeSections]
    exact (namesRules_judgeRule rule sections).append (namesRules_judgeSections rest sections)

theorem namesRules_judgeRule (rule : SectionRule) (sections : List Section) :
    NamesRules (judgeRule ctx rule sections) := by
  obtain ⟨heading, level, required, repeatable, description, content, children⟩ := rule
  rw [judgeRule]
  refine namesRules_bind fun test => ?_
  dsimp only
  split
  · exact namesRules_singleton nofun
  · exact namesRules_ite nofun
  · refine NamesRules.mapM fun s => ?_
    have own : NamesRules (do let own ← content.mapM (judgeContent ctx s); pure own.flatten) :=
      NamesRules.mapM namesRules_judgeContent
    intro findings done
    exact own.append (namesRules_judgeSections children (walkAll s.children)) findings
      (by simpa [bind_assoc] using done)

end

end NamesRules

/-! ## Documents -/

/-- Whether a finding warns of a prohibited word: unlike one on a section, it names no rule. -/
def isProhibition (f : Finding) : Bool := f.code = .prohibited && f.rule.isNone

/-- Whether the warnings among some findings report prohibited words, each of them once, in the order
of the words. -/
def Reports (fence : Text → Bool) (ctx : Context) (lines words : List Text)
    (findings : List Finding) : Prop :=
  ∃ reports, List.Forall₂ (ReportsFirst fence ctx lines) words reports ∧
    findings.filter isProhibition = reports.flatten

variable {ctx : Context} {d : Spec.Document} {rules : RuleFile} {own : List Finding}

theorem filter_judgeSections [CharacterNames] {sections : List Section} {rs : List SectionRule}
    (judged : judgeSections ctx rs sections = .ok own) : own.filter isProhibition = [] := by
  refine List.filter_eq_nil_iff.mpr fun f member => ?_
  have names := namesRules_judgeSections rs sections own judged f member
  simp [isProhibition, names]

theorem filter_judgeProhibited (ctx : Context) (lines : List Text) (word : Text) :
    (judgeProhibited ctx lines word).filter isProhibition = judgeProhibited ctx lines word := by
  rw [judgeProhibited]
  split <;> rfl

theorem filter_judgeLength (ctx : Context) (count : Nat) (limit : Option Nat) :
    (judgeLength ctx count limit).filter isProhibition = [] := by
  cases limit with
  | none => rfl
  | some limit =>
    rw [judgeLength]
    split <;> rfl

/-- A document whose sections can be judged is reported for each prohibited word at the first line that
has it outside blocks. The blocks are those of the fences at the start of their lines. As long as
indented fences come in pairs, they are those of all fences, outside which sections start. -/
theorem judgeDocument_reports [CharacterNames]
    (judged : judgeSections ⟨d.path, rules.source⟩ rules.sections
      (walkAll (Document.read d.text).sections) = .ok own) :
    ∃ findings, judgeDocument d rules = .ok findings ∧
      Reports isFlushFence ⟨d.path, rules.source⟩ (Text.lines d.text) rules.prohibited findings ∧
      ∀ i, (Even (((Text.lines d.text).take i).countP isIndentedFence) → ∀ line,
        StandsOpen isFence (Text.lines d.text) i line ↔
          StandsOpen isFlushFence (Text.lines d.text) i line ∧ isFence line = false) ∧
        ((∃ s ∈ (Document.read d.text).nodes, s.line = i + 1) ↔
          ∃ line, StandsOpen isFence (Text.lines d.text) i line ∧ (heading? line).isSome = true) := by
  refine ⟨_, bind_eq_ok_iff.mpr ⟨own, judged, rfl⟩, ⟨rules.prohibited.map
    (judgeProhibited ⟨d.path, rules.source⟩ (Text.lines d.text)), ?_, ?_⟩,
    fun i => ⟨fun pairs line => standsOpen_isFence_iff pairs, Document.exists_mem_nodes_line_iff⟩⟩
  · exact List.forall₂_map_right_iff.mpr
      (List.forall₂_same.mpr fun word _ => reportsFirst_judgeProhibited _ _ word)
  · rw [List.filter_append, List.filter_append, filter_judgeSections judged, filter_judgeLength,
      List.nil_append, List.append_nil, List.filter_flatMap]
    simp only [filter_judgeProhibited]
    rfl

/-- A rule file for headings, with a pattern that prohibits something in a section as well. -/
def plainRules : RuleFile :=
  ⟨"r.schema.yaml", "*.md",
    [⟨"Intro", 1, true, false, none, [⟨.pattern "TODO" none none false true, none⟩], []⟩],
    ["TODO", "**", "<b>"], none, none, none⟩

def fencedDocument : Spec.Document :=
  .read [] "a.md" "# Intro\n```\nTODO\n```\n**x** TODO\nTODO\n"

theorem judgeDocument_reports_fenced :
    ∃ own findings, judgeSections ⟨"a.md", "r.schema.yaml"⟩ plainRules.sections
        (walkAll (Document.read fencedDocument.text).sections) = .ok own ∧
      judgeDocument fencedDocument plainRules = .ok findings ∧
      Reports isFlushFence ⟨"a.md", "r.schema.yaml"⟩ (Text.lines fencedDocument.text)
        plainRules.prohibited findings ∧
      findings.map (fun f => (f.line, f.rule.isSome)) =
        [(some 1, true), (some 5, false), (some 5, false)] := by
  obtain ⟨own, judged⟩ := exists_of_isOk (x := judgeSections ⟨"a.md", "r.schema.yaml"⟩
    plainRules.sections (walkAll (Document.read fencedDocument.text).sections)) (by decide +kernel)
  obtain ⟨findings, done, reports, -⟩ :=
    @judgeDocument_reports fencedDocument plainRules own _ judged
  refine ⟨own, findings, judged, done, reports, ?_⟩
  have found : (judgeDocument fencedDocument plainRules).toOption.map
      (·.map fun f => (f.line, f.rule.isSome)) =
        some [(some 1, true), (some 5, false), (some 5, false)] := by decide +kernel
  rw [done] at found
  exact Option.some.inj found

/-- A word between indented fences is reported, though it stands in a block of the outline. -/
theorem indented_block_reported :
    ¬ ∀ (d : Spec.Document) (rules : RuleFile) (findings : List Finding),
      judgeDocument d rules = .ok findings →
        Reports isFence ⟨d.path, rules.source⟩ (Text.lines d.text) rules.prohibited findings := by
  intro always
  let d : Spec.Document := .read [] "a.md" " ```\nTODO\n ```\n"
  let rules : RuleFile := ⟨"r.schema.yaml", "*.md", [], ["TODO"], none, none, none⟩
  obtain ⟨reports, each, all⟩ :=
    always d rules [prohibition ⟨"a.md", "r.schema.yaml"⟩ "TODO" 1] (by rfl)
  have lines : Text.lines d.text = [" ```".toList, "TODO".toList, " ```".toList] := by
    decide +kernel
  rw [lines] at each
  cases each with
  | cons first none =>
    cases none
    cases first with
    | nowhere => cases all
    | @first i line stands =>
      -- no line stands outside the block: the fences are its ends, and one is above the word
      obtain ⟨found, other, even⟩ := stands
      match i with
      | 0 =>
        cases found
        exact absurd other (by decide)
      | 1 => exact absurd even (by decide)
      | 2 =>
        cases found
        exact absurd other (by decide)
      | i + 3 => cases found

end Conformance

end Traceability
