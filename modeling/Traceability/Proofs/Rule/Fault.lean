import Traceability.Proofs.Rule.Reader

/-!
# Faults of rule files

A reading of rules ends with a flaw at a place, or because a pattern asks for what cannot be had. The
latter it says of no other pattern: neither of one that can be read nor of one that breaks the
notation.
-/
namespace Traceability.RuleReading

variable [CharacterNames] {α β : Type} {x : RuleReading α} {g : α → RuleReading β}

/-- Whether a reading fails without a flaw only for a pattern that asks for what cannot be had. -/
def Fair (reading : RuleReading α) : Prop := ∀ u e, reading = .error (.pattern u e) →
  PatternNode.ofText u = .error e ∧ e.isNotation = false

theorem fair_pure (a : α) : Fair (pure a) := by
  rintro u e ⟨⟩

theorem fair_refuse (place : Text) (what : RuleFlaw) : Fair (refuse place what : RuleReading α) := by
  rintro u e ⟨⟩

theorem Fair.error {fault : RuleFault} (fair : Fair x) (failed : x = .error fault) :
    Fair (.error fault : RuleReading β) := by
  rintro u e ⟨⟩
  exact fair u e failed

theorem Fair.bind (first : Fair x) (next : ∀ a, Fair (g a)) : Fair (x >>= g) := by
  intro u e failed
  rcases bind_eq_error_iff.mp failed with failed | ⟨a, _, failed⟩
  · exact first u e failed
  · exact next a u e failed

theorem Fair.map (first : Fair x) (f : α → β) : Fair (x.map f) := by
  intro u e failed
  cases x with
  | ok a => cases failed
  | error fault =>
    cases failed
    exact first u e rfl

theorem fair_pattern (place t : Text) : Fair (pattern place t) := by
  intro u e failed
  unfold pattern at failed
  split at failed
  · cases failed
  · next e' unread =>
    split at failed
    · cases failed
    · next beyond =>
      cases failed
      exact ⟨unread, by simpa using beyond⟩

theorem fair_filledText (place : Text) (v : Value) : Fair (filledText place v) := by
  unfold filledText
  split
  · split
    · exact fair_refuse place _
    · exact fair_pure _
  · exact fair_refuse place _

theorem fair_text? (place : Text) (v : Value) : Fair (text? place v) := by
  unfold text?
  split
  · exact fair_pure _
  · exact fair_pure _
  · exact fair_refuse place _

theorem fair_flag (place : Text) (fallback : Bool) (v : Value) : Fair (flag place fallback v) := by
  unfold flag
  split
  · exact fair_pure _
  · exact fair_pure _
  · exact fair_refuse place _

theorem fair_count (place : Text) (fallback least : Nat) (v : Value) :
    Fair (count place fallback least v) := by
  unfold count
  split
  · exact fair_pure _
  · split
    · exact fair_refuse place _
    · exact fair_pure _
  · exact fair_refuse place _

theorem fair_table (place : Text) (v : Value) : Fair (table place v) := by
  unfold table
  split
  · exact fair_pure _
  · exact fair_refuse place _

theorem fair_list (place : Text) (field? : Option Value) : Fair (list place field?) := by
  unfold list
  split
  · exact fair_pure _
  · exact fair_pure _
  · exact fair_refuse place _

theorem fair_pattern? (place : Text) (t? : Option Text) : Fair (pattern? place t?) := by
  cases t? with
  | none => exact fair_pure ()
  | some t => exact (fair_pattern place t).map _

theorem fair_condition (place : Text) (v : Value) : Fair (condition place v) := by
  unfold condition
  split
  · exact fair_pure none
  · refine (fair_table place _).bind fun entries => ?_
    refine (fair_text? _ _).bind fun heading => (fair_text? _ _).bind fun notHeading => ?_
    split
    · exact fair_refuse place _
    · exact (fair_pattern? _ _).bind fun _ => (fair_pattern? _ _).bind fun _ => fair_pure _

theorem fair_patternDemand (place : Text) (entries : List (Text × Value)) (v : Value) :
    Fair (patternDemand place entries v) :=
  (fair_filledText _ v).bind fun t => (fair_pattern _ t).bind fun _ => (fair_text? _ _).bind fun _ =>
    (fair_text? _ _).bind fun _ => (fair_flag _ _ _).bind fun _ => (fair_flag _ _ _).bind fun _ =>
      fair_pure _

theorem fair_listDemand (place : Text) (v : Value) : Fair (listDemand place v) :=
  (fair_table _ v).bind fun _ => (fair_filledText _ _).bind fun t => (fair_pattern _ t).bind fun _ =>
    (fair_count _ _ _ _).bind fun _ => (fair_text? _ _).bind fun _ => fair_pure _

theorem fair_columns (place : Text) (v : Value) : Fair (columns place v) := by
  unfold columns
  split
  · split
    · exact fair_pure _
    · exact fair_refuse place _
  · exact fair_refuse place _

theorem fair_tableDemand (place : Text) (v : Value) : Fair (tableDemand place v) :=
  (fair_table _ v).bind fun _ => (fair_columns _ _).bind fun _ => (fair_text? _ _).bind fun _ =>
    (fair_count _ _ _ _).bind fun _ => fair_pure _

theorem fair_codeDemand (place : Text) (entries : List (Text × Value)) (v : Value) :
    Fair (codeDemand place entries v) := by
  unfold codeDemand
  split
  · exact (fair_text? _ _).bind fun _ => fair_pure _
  · exact fair_refuse _ _

theorem fair_mentionDemand (place : Text) (entries : List (Text × Value)) (v : Value) :
    Fair (mentionDemand place entries v) :=
  (fair_filledText _ v).bind fun _ => (fair_flag _ _ _).bind fun _ => fair_pure _

theorem fair_demand (place : Text) (entries : List (Text × Value)) :
    Fair (demand place entries) := by
  unfold demand
  dsimp only
  split
  · exact fair_patternDemand place entries _
  · exact fair_listDemand place _
  · exact fair_tableDemand place _
  · exact fair_codeDemand place entries _
  · exact fair_mentionDemand place entries _
  · exact fair_refuse place _

theorem fair_contentRule (place : Text) (v : Value) : Fair (contentRule place v) :=
  (fair_table place v).bind fun entries => (fair_condition _ _).bind fun _ =>
    (fair_demand place entries).bind fun _ => fair_pure _

theorem fair_contentRules (place : Text) (index : Nat) (items : List Value) :
    Fair (contentRules place index items) := by
  induction items generalizing index with
  | nil => exact fair_pure []
  | cons v rest ih =>
    exact (fair_contentRule _ v).bind fun _ => (ih (index + 1)).bind fun _ => fair_pure _

theorem fair_heading (place : Text) (v : Value) : Fair (heading place v) := by
  refine (fair_filledText place v).bind fun t => ?_
  split
  · exact fair_pure t
  · exact fair_pattern place t

theorem fair_level (place : Text) (v : Value) : Fair (level place v) := by
  unfold level
  split
  · split
    · exact fair_pure _
    · exact fair_refuse place _
  · exact fair_refuse place _

mutual

theorem fair_sectionRule (place : Text) (v : Value) : Fair (sectionRule place v) := by
  unfold sectionRule
  split
  · next failed => exact (fair_table place v).error failed
  · next entries found =>
    refine (fair_heading _ _).bind fun _ => (fair_level _ _).bind fun _ => ?_
    split
    · next failed => exact (fair_list _ _).error failed
    · next failed => exact (fair_list _ _).error failed
    · next content items contains children =>
      have smaller : sizeOf items < sizeOf v :=
        Nat.lt_of_le_of_lt (sizeOf_list children) (sizeOf_table found)
      refine (fair_flag _ _ _).bind fun _ => (fair_flag _ _ _).bind fun _ => ?_
      refine (fair_text? _ _).bind fun _ => (fair_contentRules _ _ _).bind fun _ => ?_
      exact (fair_sectionRules _ 0 items).bind fun _ => fair_pure _
termination_by sizeOf v

theorem fair_sectionRules (place : Text) (index : Nat) (items : List Value) :
    Fair (sectionRules place index items) := by
  cases items with
  | nil =>
    rw [sectionRules]
    exact fair_pure []
  | cons v rest =>
    rw [sectionRules]
    exact (fair_sectionRule _ v).bind fun _ => (fair_sectionRules _ _ rest).bind fun _ => fair_pure _
termination_by sizeOf items

end

theorem fair_documentSections (v : Value) : Fair (documentSections v) := by
  unfold documentSections
  split
  · exact fair_pure []
  · exact fair_sectionRules _ 0 _
  · exact fair_refuse _ _

theorem fair_texts (place : Text) (field? : Option Value) : Fair (texts place field?) := by
  unfold texts
  split
  · exact fair_pure []
  · split
    · exact fair_pure _
    · exact fair_refuse place _
  · exact fair_refuse place _

theorem fair_lineLimit (v : Value) : Fair (lineLimit v) := by
  unfold lineLimit
  split
  · exact fair_pure none
  · exact (fair_count _ _ _ v).map some

/-- A rule file is given up without a flaw only for a pattern that asks for what cannot be had. -/
theorem fair_ofValue (source : Path) (v : Value) : Fair (RuleFile.ofValue source v) :=
  (fair_table _ v).bind fun _ => (fair_filledText _ _).bind fun _ =>
    (fair_documentSections _).bind fun _ => (fair_texts _ _).bind fun _ =>
      (fair_lineLimit _).bind fun _ => (fair_text? _ _).bind fun _ => (fair_text? _ _).bind fun _ =>
        fair_pure _

end Traceability.RuleReading
