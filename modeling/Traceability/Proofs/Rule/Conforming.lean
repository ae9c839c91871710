import Traceability.Proofs.Cut
import Traceability.Proofs.Results
import Traceability.Proofs.Rule.Conformance

/-!
# When sections conform

Sections conform to rules by the rules alone: a rule that names one of them demands something of
it, or of all that it names when it is repeatable, and rules for the sections in it in turn; a rule
that names none at its level is kept when none has its heading and none is required. Judging finds
nothing exactly if the sections conform.
-/
namespace Traceability

/-- Whether an item is the first one of a list with a property. -/
def IsFirst {α : Type} (p : α → Prop) (l : List α) (a : α) : Prop :=
  ∃ before after, l = before ++ a :: after ∧ p a ∧ ∀ b ∈ before, ¬ p b

theorem isFirst_iff_find? {α : Type} {p : α → Bool} {l : List α} {a : α} :
    IsFirst (p · = true) l a ↔ l.find? p = some a := by
  rw [List.find?_eq_some_iff_append, IsFirst]
  constructor
  · rintro ⟨before, after, shape, here, others⟩
    exact ⟨here, before, after, shape, by simpa using others⟩
  · rintro ⟨here, before, after, shape, others⟩
    exact ⟨before, after, shape, here, by simpa using others⟩

open Outline

/-- Whether a text mentions another, whatever the case of letters. -/
def Mentions (t word : Text) : Prop := Text.upper word <:+: Text.upper t

/-! ## Judgements that tell -/

namespace Conformance

/-- Whether a judgement comes to an end, and finds nothing exactly if something holds. -/
def Tells (j : Judgement (List Finding)) (p : Prop) : Prop :=
  ∃ findings, j = .ok findings ∧ (findings = [] ↔ p)

variable {p q : Prop} {j : Judgement (List Finding)}

theorem Tells.congr (tells : Tells j p) (same : p ↔ q) : Tells j q := by
  obtain ⟨findings, done, nothing⟩ := tells
  exact ⟨findings, done, nothing.trans same⟩

theorem tells_nothing (holds : p) : Tells (.ok []) p :=
  ⟨[], rfl, iff_of_true rfl holds⟩

theorem tells_finding (f : Finding) (fails : ¬ p) : Tells (.ok [f]) p :=
  ⟨[f], rfl, iff_of_false (List.cons_ne_nil _ _) fails⟩

theorem tells_ite {c : Prop} [Decidable c] (f : Finding) (fails : c ↔ ¬ p) :
    Tells (.ok (if c then [f] else [])) p := by
  split
  · next found => exact tells_finding f (fails.mp found)
  · next clean => exact tells_nothing (Classical.not_not.mp (mt fails.mpr clean))

theorem tells_unless {c : Prop} [Decidable c] (f : Finding) (holds : c ↔ p) :
    Tells (.ok (if c then [] else [f])) p := by
  split
  · next clean => exact tells_nothing (holds.mp clean)
  · next found => exact tells_finding f (mt holds.mpr found)

/-- Two judgements, one after the other, tell whether both things hold. -/
theorem Tells.append {k : Judgement (List Finding)} (first : Tells j p) (second : Tells k q) :
    Tells (do let findings ← j; pure (findings ++ (← k))) (p ∧ q) := by
  obtain ⟨findings, done, nothing⟩ := first
  obtain ⟨more, also, nothing'⟩ := second
  refine ⟨findings ++ more, by rw [done, also]; rfl, ?_⟩
  rw [List.append_eq_nil_iff, nothing, nothing']

/-- Judgements of all items of a list tell whether something holds of all of them. -/
theorem Tells.mapM {α : Type} {l : List α} {f : α → Judgement (List Finding)} {p : α → Prop}
    (each : ∀ a ∈ l, Tells (f a) (p a)) :
    Tells (do let findings ← l.mapM f; pure findings.flatten) (∀ a ∈ l, p a) := by
  induction l with
  | nil => exact tells_nothing (by simp)
  | cons a rest ih =>
    obtain ⟨here, later⟩ := List.forall_mem_cons.mp each
    obtain ⟨findings, done, nothing⟩ := here
    obtain ⟨_, all, nothing'⟩ := ih later
    obtain ⟨more, done', flat⟩ := bind_eq_ok_iff.mp all
    cases flat
    refine ⟨(findings :: more).flatten, by rw [List.mapM_cons, done, done']; rfl, ?_⟩
    rw [List.flatten_cons, List.append_eq_nil_iff, nothing, nothing', List.forall_mem_cons]

theorem mentions_iff {s : Section} {text : Text} : mentions s text = true ↔
    (∃ n ∈ walkAll s.children, Mentions n.heading text) ∨ Mentions s.fullText text := by
  simp [mentions, Mentions, Text.includes_iff_infix]

end Conformance

/-! ## What rules ask for -/

section Rules

variable [CharacterNames]

/-- Whether a pattern can be used and occurs in a text. -/
def Occurs (flags : PatternFlags) (pattern t : Text) : Prop :=
  ∃ node, PatternNode.use flags pattern = .ok node ∧ node.occursIn t = true

/-- Whether a pattern for headings can be used and matches a heading. -/
def HeadingPattern.Fits (pattern heading : Text) : Prop :=
  ∃ test, HeadingPattern.test pattern = .ok test ∧ test heading = true

/-- Whether a condition holds of a heading. -/
def RuleCondition.Holds (c : RuleCondition) (heading : Text) : Prop :=
  (∀ pattern ∈ c.heading, Occurs {} pattern heading) ∧
    ∀ pattern ∈ c.notHeading, ¬ Occurs {} pattern heading

/-- Whether a section is at a level and has a heading that a pattern matches. -/
def HeadingPattern.Names (pattern : Text) (level : Nat) (s : Section) : Prop :=
  s.level = level ∧ HeadingPattern.Fits pattern s.heading

/-- Whether a section has what a demand asks for. -/
def Demand.MetBy (s : Section) : Demand → Prop
  | .pattern p _ _ required prohibited =>
    if prohibited then ¬ Occurs { multiline := true } p s.fullText
    else required = true → Occurs { multiline := true } p s.fullText
  | .list p least _ => ∃ items : List Text, items.Sublist s.listItems ∧ least ≤ items.length ∧
      ∀ item ∈ items, Occurs {} p item
  | .table columns leastRows _ => ∃ t, IsFirst (fun t => ∀ c ∈ columns, c ∈ t.header) s.tables t ∧
      leastRows ≤ t.rows.length
  | .codeBlock _ => ∃ n ∈ s.walk, ∃ line ∈ n.content, isFence line = true
  | .mention text required => required = true →
      (∃ n ∈ walkAll s.children, Mentions n.heading text) ∨ Mentions s.fullText text

/-- Whether a section keeps a rule for its content, which only a condition on its heading can spare
it. -/
def ContentRule.MetBy (s : Section) (r : ContentRule) : Prop :=
  (∀ c ∈ r.condition, c.Holds s.heading) → r.demand.MetBy s

mutual

/-- Whether sections conform to all rules of a list. -/
def Conform : List SectionRule → List Section → Prop
  | [], _ => True
  | rule :: rest, sections => ConformTo rule sections ∧ Conform rest sections

/-- Whether sections conform to a rule. If it names one of them, at its level, then what it asks for
is asked of the first one that it names, or of all of them; else none may have its heading at
another level, and none may be required. -/
def ConformTo : SectionRule → List Section → Prop
  | ⟨heading, level, required, repeatable, _, content, children⟩, sections =>
    (∀ s ∈ sections, HeadingPattern.Names heading level s →
      repeatable = true ∨ IsFirst (HeadingPattern.Names heading level) sections s →
      (∀ c ∈ content, c.MetBy s) ∧ Conform children (walkAll s.children)) ∧
    ((∀ s ∈ sections, ¬ HeadingPattern.Names heading level s) →
      (∀ s ∈ sections, ¬ HeadingPattern.Fits heading s.heading) ∧ required = false)

end

/-- Whether the checks of a rule come upon no pattern that cannot be used. -/
structure SectionRule.Usable (r : SectionRule) : Prop where
  heading : ∃ test, HeadingPattern.test r.heading = .ok test
  content : ∀ c ∈ r.content, c.Readable

namespace Conformance

variable {p : Prop}

theorem occurs_iff {flags : PatternFlags} {pattern t : Text} {node : PatternNode}
    (usable : PatternNode.use flags pattern = .ok node) :
    Occurs flags pattern t ↔ node.occursIn t = true := by
  constructor
  · rintro ⟨node', used, found⟩
    rw [usable] at used
    cases used
    exact found
  · intro found
    exact ⟨node, usable, found⟩

theorem fits_iff {pattern heading : Text} {test : Text → Bool}
    (usable : HeadingPattern.test pattern = .ok test) :
    HeadingPattern.Fits pattern heading ↔ test heading = true := by
  constructor
  · rintro ⟨test', used, found⟩
    rw [usable] at used
    cases used
    exact found
  · intro found
    exact ⟨test, usable, found⟩

theorem exists_holds_iff {c : RuleCondition} (readable : c.Readable) (heading : Text) :
    ∃ b, c.holds heading = .ok b ∧ (b = true ↔ c.Holds heading) := by
  obtain ⟨here, notHere⟩ := c
  cases here with
  | none =>
    cases notHere with
    | none => exact ⟨true, rfl, by simp [RuleCondition.Holds]⟩
    | some p' =>
      obtain ⟨node', used'⟩ := PatternNode.exists_use (readable.2 p' rfl)
      exact ⟨!node'.occursIn heading, by simp only [RuleCondition.holds, used']; rfl,
        by simp [RuleCondition.Holds, occurs_iff used']⟩
  | some p =>
    obtain ⟨node, used⟩ := PatternNode.exists_use (readable.1 p rfl)
    cases notHere with
    | none =>
      refine ⟨node.occursIn heading, ?_, by simp [RuleCondition.Holds, occurs_iff used]⟩
      simp only [RuleCondition.holds, used]
      cases found : node.occursIn heading <;>
        simp [Except.map, found, bind, Except.bind, pure, Except.pure]
    | some p' =>
      obtain ⟨node', used'⟩ := PatternNode.exists_use (readable.2 p' rfl)
      refine ⟨node.occursIn heading && !node'.occursIn heading, ?_,
        by simp [RuleCondition.Holds, occurs_iff used, occurs_iff used']⟩
      simp only [RuleCondition.holds, used, used']
      cases found : node.occursIn heading <;>
        simp [Except.map, found, bind, Except.bind, pure, Except.pure]

variable {ctx : Context} {s : Section}

theorem tells_judgePattern {pattern : Text} {label description : Option Text}
    {required prohibited : Bool} (readable : PatternNode.Readable pattern) :
    Tells (judgePattern ctx s pattern label required prohibited)
      ((Demand.pattern pattern label description required prohibited).MetBy s) := by
  obtain ⟨node, used⟩ := PatternNode.exists_use readable.multiline
  have occurs := occurs_iff (t := s.fullText) used
  rw [judgePattern, used]
  cases prohibited with
  | true =>
    refine tells_ite _ ?_
    simp [Demand.MetBy, occurs]
  | false =>
    refine tells_ite _ ?_
    rw [Demand.MetBy, if_neg Bool.false_ne_true, occurs]
    cases node.occursIn s.fullText <;> simp

theorem metBy_list_iff {pattern : Text} {least : Nat} {label : Option Text} {node : PatternNode}
    (used : PatternNode.use {} pattern = .ok node) :
    (Demand.list pattern least label).MetBy s ↔ least ≤ s.listItems.countP node.occursIn := by
  simp only [Demand.MetBy, occurs_iff used]
  constructor
  · rintro ⟨items, sub, enough, all⟩
    have same : items.countP node.occursIn = items.length := List.countP_eq_length.mpr all
    calc least ≤ items.length := enough
      _ = items.countP node.occursIn := same.symm
      _ ≤ s.listItems.countP node.occursIn := sub.countP_le
  · intro enough
    refine ⟨s.listItems.filter node.occursIn, List.filter_sublist, ?_, ?_⟩
    · rwa [← List.countP_eq_length_filter]
    · intro item member
      exact (List.mem_filter.mp member).2

theorem tells_judgeList {pattern : Text} {least : Nat} {label : Option Text}
    (readable : PatternNode.Readable pattern) :
    Tells (judgeList ctx s pattern least label) ((Demand.list pattern least label).MetBy s) := by
  obtain ⟨node, used⟩ := PatternNode.exists_use readable
  refine Tells.congr ?_ (metBy_list_iff used).symm
  -- without items the pattern is not even looked at
  have counted : ∃ f, judgeList ctx s pattern least label =
      .ok (if s.listItems.countP node.occursIn < least then [f] else []) := by
    rw [judgeList]
    cases s.listItems with
    | nil => exact ⟨_, rfl⟩
    | cons first rest => exact ⟨_, by rw [used]; rfl⟩
  obtain ⟨f, done⟩ := counted
  rw [done]
  exact tells_ite f (Nat.not_le.symm)

theorem metBy_table_iff {columns : List Text} {leastRows : Nat} {heading : Option Text} :
    (Demand.table columns leastRows heading).MetBy s ↔
      ∃ t, s.tables.find? (hasColumns columns) = some t ∧ leastRows ≤ t.rows.length := by
  have named (t : Table) : (∀ c ∈ columns, c ∈ t.header) ↔ hasColumns columns t = true := by
    simp [hasColumns]
  simp only [Demand.MetBy, named, isFirst_iff_find?]

theorem tells_judgeTable {columns : List Text} {leastRows : Nat} {heading : Option Text} :
    Tells (.ok (judgeTable ctx s columns leastRows heading))
      ((Demand.table columns leastRows heading).MetBy s) := by
  refine Tells.congr ?_ metBy_table_iff.symm
  rw [judgeTable]
  split
  · next none => exact tells_finding _ (by simp [none])
  · next first rest some =>
    rw [some]
    split
    · next none => exact tells_finding _ (by simp [none])
    · next t found =>
      rw [found]
      split
      · next few => exact tells_finding _ (by simpa using few)
      · next many => exact tells_nothing (by simpa using many)

/-- Holding a section against a demand tells whether it is met. -/
theorem tells_judgeDemand {d : Demand} (readable : d.Readable) :
    Tells (judgeDemand ctx s d) (d.MetBy s) := by
  cases d with
  | pattern p label description required prohibited => exact tells_judgePattern readable
  | list p least label => exact tells_judgeList readable
  | table columns leastRows heading => exact tells_judgeTable
  | codeBlock label =>
    rw [judgeDemand]
    exact tells_unless _ (by simp [Demand.MetBy, Section.hasFence])
  | mention text required =>
    rw [judgeDemand]
    refine tells_unless _ ?_
    rw [Demand.MetBy, ← mentions_iff]
    cases required <;> simp

theorem tells_judgeContent {r : ContentRule} (readable : r.Readable) :
    Tells (judgeContent ctx s r) (r.MetBy s) := by
  obtain ⟨demand, condition⟩ := r
  cases condition with
  | none => exact (tells_judgeDemand readable.demand).congr (by simp [ContentRule.MetBy])
  | some c =>
    obtain ⟨applies, done, holds⟩ := exists_holds_iff (readable.condition c rfl) s.heading
    simp only [judgeContent, done]
    have met : ContentRule.MetBy s ⟨demand, some c⟩ ↔ (applies = true → demand.MetBy s) := by
      simp [ContentRule.MetBy, holds]
    refine Tells.congr ?_ met.symm
    cases applies with
    | true => exact (tells_judgeDemand readable.demand).congr (by simp)
    | false => exact tells_nothing (by simp)

theorem isFirst_named_iff {heading : Text} {level : Nat} {test : Text → Bool}
    {sections : List Section} (usable : HeadingPattern.test heading = .ok test) :
    IsFirst (HeadingPattern.Names heading level) sections s ↔
      ((sections.filter fun s => test s.heading).filter (·.level = level)).head? = some s := by
  have same : HeadingPattern.Names heading level =
      fun s => (decide (s.level = level) && test s.heading) = true := by
    funext s
    simp [HeadingPattern.Names, fits_iff usable]
  rw [List.filter_filter, List.head?_filter, ← isFirst_iff_find?, same]

section ConformTo

variable {heading : Text} {level : Nat} {required repeatable : Bool} {description : Option Text}
  {content : List ContentRule} {children : List SectionRule} {sections : List Section}

theorem conformTo_of_unnamed
    (unnamed : ∀ s ∈ sections, ¬ HeadingPattern.Names heading level s) :
    ConformTo ⟨heading, level, required, repeatable, description, content, children⟩ sections ↔
      (∀ s ∈ sections, ¬ HeadingPattern.Fits heading s.heading) ∧ required = false := by
  rw [ConformTo]
  constructor
  · intro conform
    exact conform.2 unnamed
  · intro spared
    exact ⟨fun s among here => absurd here (unnamed s among), fun _ => spared⟩

theorem conformTo_of_named (among : s ∈ sections) (here : HeadingPattern.Names heading level s) :
    ConformTo ⟨heading, level, required, repeatable, description, content, children⟩ sections ↔
      ∀ x, (x ∈ sections ∧ HeadingPattern.Names heading level x) ∧
        (repeatable = true ∨ IsFirst (HeadingPattern.Names heading level) sections x) →
        (∀ c ∈ content, c.MetBy x) ∧ Conform children (walkAll x.children) := by
  rw [ConformTo]
  constructor
  · intro conform x which
    exact conform.1 x which.1.1 which.1.2 which.2
  · intro kept
    exact ⟨fun x among here which => kept x ⟨⟨among, here⟩, which⟩,
      fun unnamed => absurd here (unnamed s among)⟩

end ConformTo

/-- Judging by a rule whose heading pattern can be used. -/
theorem judgeRule_eq {heading : Text} {level : Nat} {required repeatable : Bool}
    {description : Option Text} {content : List ContentRule} {children : List SectionRule}
    {test : Text → Bool} {sections : List Section}
    (usable : HeadingPattern.test heading = .ok test) :
    judgeRule ctx ⟨heading, level, required, repeatable, description, content, children⟩ sections =
      match (sections.filter fun s => test s.heading).filter (·.level = level),
        sections.filter fun s => test s.heading with
      | [], s :: _ => .ok [wrongLevel ctx heading level s]
      | [], [] => .ok (if required then [missingSection ctx heading level] else [])
      | first :: others, _ => (do
        let findings ← (if repeatable then first :: others else [first]).mapM fun s => do
          let own ← content.mapM (judgeContent ctx s)
          pure (own.flatten ++ (← judgeSections ctx children (walkAll s.children)))
        pure findings.flatten) := by
  rw [judgeRule, usable]
  rfl

theorem tells_own {content : List ContentRule} {j : Judgement (List Finding)}
    (readable : ∀ c ∈ content, c.Readable) (below : Tells j p) :
    Tells (do let own ← content.mapM (judgeContent ctx s)
              pure (own.flatten ++ (← j)))
      ((∀ c ∈ content, c.MetBy s) ∧ p) := by
  have each : ∀ c ∈ content, Tells (judgeContent ctx s c) (c.MetBy s) :=
    fun c member => tells_judgeContent (readable c member)
  have own := Tells.mapM each
  obtain ⟨findings, done, nothing⟩ := own.append below
  obtain ⟨flat, all, done⟩ := bind_eq_ok_iff.mp done
  obtain ⟨own, each, same⟩ := bind_eq_ok_iff.mp all
  cases same
  exact ⟨findings, by rw [each]; exact done, nothing⟩

mutual

/-- Judging sections by rules tells whether they conform. -/
theorem tells_judgeSections {rules : List SectionRule} {sections : List Section}
    (usable : ∀ r ∈ SectionRule.walkAll rules, r.Usable) :
    Tells (judgeSections ctx rules sections) (Conform rules sections) := by
  cases rules with
  | nil => exact tells_nothing trivial
  | cons rule rest =>
    rw [SectionRule.walkAll] at usable
    obtain ⟨own, others⟩ := List.forall_mem_append.mp usable
    rw [judgeSections, Conform]
    exact (tells_judgeRule own).append (tells_judgeSections others)

theorem tells_judgeRule {rule : SectionRule} {sections : List Section}
    (usable : ∀ r ∈ rule.walk, r.Usable) :
    Tells (judgeRule ctx rule sections) (ConformTo rule sections) := by
  obtain ⟨heading, level, required, repeatable, description, content, children⟩ := rule
  rw [SectionRule.walk] at usable
  obtain ⟨own, below⟩ := List.forall_mem_cons.mp usable
  obtain ⟨test, used⟩ := own.heading
  have fits (s : Section) : HeadingPattern.Fits heading s.heading ↔ test s.heading = true :=
    fits_iff used
  have first (s : Section) : IsFirst (HeadingPattern.Names heading level) sections s ↔
      ((sections.filter fun s => test s.heading).filter (·.level = level)).head? = some s :=
    isFirst_named_iff used
  have below (s : Section) : Tells (judgeSections ctx children (walkAll s.children))
      (Conform children (walkAll s.children)) := tells_judgeSections below
  have mem_named (s : Section) :
      s ∈ (sections.filter fun s => test s.heading) ↔ s ∈ sections ∧ test s.heading = true :=
    List.mem_filter
  rw [judgeRule_eq used]
  generalize sections.filter (fun s => test s.heading) = named at first mem_named ⊢
  have mem_level (s : Section) : s ∈ named.filter (·.level = level) ↔
      s ∈ sections ∧ HeadingPattern.Names heading level s := by
    rw [List.mem_filter, mem_named, HeadingPattern.Names, fits, decide_eq_true_eq, and_assoc,
      and_comm (a := test s.heading = true)]
  have unnamed (none : named.filter (·.level = level) = []) (s : Section) (among : s ∈ sections) :
      ¬ HeadingPattern.Names heading level s := by
    intro here
    have never := (mem_level s).mpr ⟨among, here⟩
    rw [none] at never
    cases never
  split
  · next s rest none =>
    obtain ⟨member, fit⟩ := (mem_named s).mp List.mem_cons_self
    refine tells_finding _ fun conform => ?_
    exact ((conformTo_of_unnamed (unnamed none)).mp conform).1 s member ((fits s).mpr fit)
  · next none =>
    have never (s : Section) (among : s ∈ sections) : ¬ HeadingPattern.Fits heading s.heading :=
      fun fit => nomatch (mem_named s).mpr ⟨among, (fits s).mp fit⟩
    refine tells_ite _ ?_
    rw [conformTo_of_unnamed (unnamed none), ← Bool.not_eq_false, not_iff_not]
    exact ⟨fun spared => ⟨never, spared⟩, And.right⟩
  · next s others shape =>
    obtain ⟨among, here⟩ := (mem_level s).mp (shape ▸ List.mem_cons_self)
    refine Tells.congr (Tells.mapM fun s _ => tells_own own.content (below s)) ?_
    rw [shape] at first
    have judged (x : Section) : x ∈ (if repeatable = true then s :: others else [s]) ↔
        (x ∈ sections ∧ HeadingPattern.Names heading level x) ∧
          (repeatable = true ∨ IsFirst (HeadingPattern.Names heading level) sections x) := by
      rw [← mem_level, shape, first]
      cases repeatable with
      | true => simp
      | false => simp +contextual [eq_comm]
    simp only [judged]
    exact (conformTo_of_named among here).symm

end

end Conformance

end Rules

/-! ## Rules for requirements -/

namespace Conformance

def requirementRules : List SectionRule :=
  [⟨"Requirements", 1, true, false, none, [],
    [⟨"[A-Z]+-\\d+: .+", 3, false, true, none,
      [⟨.list "_AC\\N\x7bHYPHEN-MINUS\x7d\\d+" 1 none, some ⟨none, some "Deprecated"⟩⟩], []⟩]⟩]

def requirementSections : List Section :=
  walkAll (Document.read ("# Requirements\n### CFG-1: Load\n- [ ] CFG-1_AC-1 Reads it\n" ++
    "### CFG-2: Deprecated loader\n")).sections

end Conformance

end Traceability
