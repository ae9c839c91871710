import Traceability.Rule.Reader
import Traceability.Proofs.Pattern.Enclosed

/-!
# Rules that have been read

Every pattern of a rule file that has been read can be read by itself, however deep its section is.
-/
namespace Traceability

open PatternNode

mutual

/-- A rule for sections with the rules for the sections in them. -/
def SectionRule.walk : SectionRule → List SectionRule
  | ⟨heading, level, required, repeatable, description, content, children⟩ =>
    ⟨heading, level, required, repeatable, description, content, children⟩ ::
      SectionRule.walkAll children

def SectionRule.walkAll : List SectionRule → List SectionRule
  | [] => []
  | r :: rest => r.walk ++ SectionRule.walkAll rest

end

theorem SectionRule.walk_eq (r : SectionRule) : r.walk = r :: walkAll r.children := by
  cases r
  rfl

variable [CharacterNames]

def RuleCondition.Readable (c : RuleCondition) : Prop :=
  (∀ p ∈ c.heading, PatternNode.Readable p) ∧ ∀ p ∈ c.notHeading, PatternNode.Readable p

def Demand.Readable : Demand → Prop
  | .pattern p _ _ _ _ => PatternNode.Readable p
  | .list p _ _ => PatternNode.Readable p
  | _ => True

structure ContentRule.Readable (r : ContentRule) : Prop where
  demand : r.demand.Readable
  condition : ∀ c ∈ r.condition, c.Readable

structure SectionRule.Readable (r : SectionRule) : Prop where
  heading : HeadingPattern.isLiteral r.heading ∨ PatternNode.Readable r.heading
  content : ∀ c ∈ r.content, c.Readable

namespace RuleReading

theorem readable_of_pattern {place t t' : Text} (done : pattern place t = .ok t') :
    t' = t ∧ Readable t := by
  unfold pattern at done
  split at done
  · next node read =>
    cases done
    exact ⟨rfl, node, read⟩
  · split at done
    · cases done
    · cases done

theorem readable_of_pattern? {place : Text} {t? : Option Text} {u : Unit}
    (done : pattern? place t? = .ok u) : ∀ t ∈ t?, Readable t := by
  rintro t rfl
  change (pattern place t).map _ = _ at done
  cases found : pattern place t with
  | error e =>
    rw [found] at done
    cases done
  | ok t' => exact (readable_of_pattern found).2

theorem readable_of_condition {place : Text} {v : Value} {c : Option RuleCondition}
    (done : condition place v = .ok c) : ∀ c' ∈ c, c'.Readable := by
  unfold condition at done
  split at done
  · cases done
    exact fun _ never => nomatch never
  · obtain ⟨entries, _, done⟩ := bind_eq_ok_iff.mp done
    obtain ⟨here, _, done⟩ := bind_eq_ok_iff.mp done
    obtain ⟨notHere, _, done⟩ := bind_eq_ok_iff.mp done
    split at done
    · cases done
    · obtain ⟨_, first, done⟩ := bind_eq_ok_iff.mp done
      obtain ⟨_, second, done⟩ := bind_eq_ok_iff.mp done
      cases done
      rintro c' same
      cases same
      exact ⟨readable_of_pattern? first, readable_of_pattern? second⟩

theorem readable_of_patternDemand {place : Text} {entries : List (Text × Value)} {v : Value}
    {d : Demand} (done : patternDemand place entries v = .ok d) : d.Readable := by
  obtain ⟨t, _, done⟩ := bind_eq_ok_iff.mp done
  obtain ⟨found, read, done⟩ := bind_eq_ok_iff.mp done
  obtain ⟨_, _, done⟩ := bind_eq_ok_iff.mp done
  obtain ⟨_, _, done⟩ := bind_eq_ok_iff.mp done
  obtain ⟨_, _, done⟩ := bind_eq_ok_iff.mp done
  obtain ⟨_, _, done⟩ := bind_eq_ok_iff.mp done
  cases done
  obtain ⟨rfl, readable⟩ := readable_of_pattern read
  exact readable

theorem readable_of_listDemand {place : Text} {v : Value} {d : Demand}
    (done : listDemand place v = .ok d) : d.Readable := by
  obtain ⟨entries, _, done⟩ := bind_eq_ok_iff.mp done
  obtain ⟨t, _, done⟩ := bind_eq_ok_iff.mp done
  obtain ⟨found, read, done⟩ := bind_eq_ok_iff.mp done
  obtain ⟨_, _, done⟩ := bind_eq_ok_iff.mp done
  obtain ⟨_, _, done⟩ := bind_eq_ok_iff.mp done
  cases done
  obtain ⟨rfl, readable⟩ := readable_of_pattern read
  exact readable

theorem readable_of_demand {place : Text} {entries : List (Text × Value)} {d : Demand}
    (done : demand place entries = .ok d) : d.Readable := by
  unfold demand at done
  dsimp only at done
  split at done
  · exact readable_of_patternDemand done
  · exact readable_of_listDemand done
  · obtain ⟨_, _, done⟩ := bind_eq_ok_iff.mp done
    obtain ⟨_, _, done⟩ := bind_eq_ok_iff.mp done
    obtain ⟨_, _, done⟩ := bind_eq_ok_iff.mp done
    obtain ⟨_, _, done⟩ := bind_eq_ok_iff.mp done
    cases done
    trivial
  · unfold codeDemand at done
    split at done
    · obtain ⟨_, _, done⟩ := bind_eq_ok_iff.mp done
      cases done
      trivial
    · cases done
  · obtain ⟨_, _, done⟩ := bind_eq_ok_iff.mp done
    obtain ⟨_, _, done⟩ := bind_eq_ok_iff.mp done
    cases done
    trivial
  · cases done

theorem readable_of_contentRule {place : Text} {v : Value} {r : ContentRule}
    (done : contentRule place v = .ok r) : r.Readable := by
  obtain ⟨entries, _, done⟩ := bind_eq_ok_iff.mp done
  obtain ⟨c, condition, done⟩ := bind_eq_ok_iff.mp done
  obtain ⟨d, demand, done⟩ := bind_eq_ok_iff.mp done
  cases done
  exact ⟨readable_of_demand demand, readable_of_condition condition⟩

theorem readable_of_contentRules {place : Text} {index : Nat} {items : List Value}
    {rules : List ContentRule} (done : contentRules place index items = .ok rules) :
    ∀ r ∈ rules, r.Readable := by
  induction items generalizing index rules with
  | nil =>
    cases done
    exact fun _ never => absurd never List.not_mem_nil
  | cons v rest ih =>
    obtain ⟨r, first, done⟩ := bind_eq_ok_iff.mp done
    obtain ⟨later, read, done⟩ := bind_eq_ok_iff.mp done
    cases done
    exact List.forall_mem_cons.mpr ⟨readable_of_contentRule first, ih read⟩

theorem readable_of_heading {place : Text} {v : Value} {t : Text} (done : heading place v = .ok t) :
    HeadingPattern.isLiteral t ∨ Readable t := by
  obtain ⟨t', _, done⟩ := bind_eq_ok_iff.mp done
  split at done
  · next literal =>
    cases done
    exact .inl literal
  · obtain ⟨rfl, readable⟩ := readable_of_pattern done
    exact .inr readable

/-- What a section rule is read from: a table with its content and the rules for the sections in it. -/
theorem parts_of_sectionRule {place : Text} {v : Value} {r : SectionRule}
    (done : sectionRule place v = .ok r) :
    ∃ (entries : List (Text × Value)) (content items : List Value), table place v = .ok entries ∧
      heading (fieldOf place "heading") (Value.field entries "heading") = .ok r.heading ∧
      contentRules (fieldOf place "contains") 0 content = .ok r.content ∧
      list (fieldOf place "children") (Value.field? entries "children") = .ok items ∧
      sectionRules (fieldOf place "children") 0 items = .ok r.children := by
  unfold sectionRule at done
  split at done
  · cases done
  · next entries found =>
    obtain ⟨title, named, done⟩ := bind_eq_ok_iff.mp done
    obtain ⟨_, _, done⟩ := bind_eq_ok_iff.mp done
    split at done
    · cases done
    · cases done
    · next content items contains children =>
      obtain ⟨_, _, done⟩ := bind_eq_ok_iff.mp done
      obtain ⟨_, _, done⟩ := bind_eq_ok_iff.mp done
      obtain ⟨_, _, done⟩ := bind_eq_ok_iff.mp done
      obtain ⟨rules, own, done⟩ := bind_eq_ok_iff.mp done
      obtain ⟨inner, below, done⟩ := bind_eq_ok_iff.mp done
      cases done
      exact ⟨entries, content, items, found, named, own, children, below⟩

mutual

theorem readable_of_sectionRule {place : Text} {v : Value} {r : SectionRule}
    (done : sectionRule place v = .ok r) : ∀ q ∈ r.walk, q.Readable := by
  obtain ⟨entries, content, items, found, named, own, children, below⟩ := parts_of_sectionRule done
  have smaller : sizeOf items < sizeOf v :=
    Nat.lt_of_le_of_lt (sizeOf_list children) (sizeOf_table found)
  rw [SectionRule.walk_eq]
  refine List.forall_mem_cons.mpr ⟨⟨readable_of_heading named, readable_of_contentRules own⟩, ?_⟩
  exact readable_of_sectionRules below
termination_by sizeOf v

theorem readable_of_sectionRules {place : Text} {index : Nat} {items : List Value}
    {rules : List SectionRule} (done : sectionRules place index items = .ok rules) :
    ∀ q ∈ SectionRule.walkAll rules, q.Readable := by
  unfold sectionRules at done
  split at done
  · cases done
    exact fun _ never => absurd never List.not_mem_nil
  · next v rest =>
    obtain ⟨r, first, done⟩ := bind_eq_ok_iff.mp done
    obtain ⟨later, read, done⟩ := bind_eq_ok_iff.mp done
    cases done
    rw [SectionRule.walkAll]
    exact List.forall_mem_append.mpr ⟨readable_of_sectionRule first, readable_of_sectionRules read⟩
termination_by sizeOf items

end

theorem readable_of_documentSections {v : Value} {rules : List SectionRule}
    (done : documentSections v = .ok rules) : ∀ r ∈ SectionRule.walkAll rules, r.Readable := by
  unfold documentSections at done
  split at done
  · cases done
    exact fun _ never => absurd never List.not_mem_nil
  · exact readable_of_sectionRules done
  · cases done

end RuleReading

theorem RuleFile.readable_of_ofValue {source : Path} {v : Value} {rules : RuleFile}
    (loaded : RuleFile.ofValue source v = .ok rules) :
    ∀ r ∈ SectionRule.walkAll rules.sections, r.Readable := by
  obtain ⟨entries, _, loaded⟩ := bind_eq_ok_iff.mp loaded
  obtain ⟨_, _, loaded⟩ := bind_eq_ok_iff.mp loaded
  obtain ⟨sections, read, loaded⟩ := bind_eq_ok_iff.mp loaded
  obtain ⟨_, _, loaded⟩ := bind_eq_ok_iff.mp loaded
  obtain ⟨_, _, loaded⟩ := bind_eq_ok_iff.mp loaded
  obtain ⟨_, _, loaded⟩ := bind_eq_ok_iff.mp loaded
  obtain ⟨_, _, loaded⟩ := bind_eq_ok_iff.mp loaded
  cases loaded
  exact RuleReading.readable_of_documentSections read

end Traceability
