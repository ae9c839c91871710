import Mathlib.Tactic.MkIffOfInductiveProp
import Traceability.Proofs.Rule.Reader

/-!
# The form of rule files

Rules can be read from a value just when the value has the form of a rule file: a table whose fields
have their forms, and so on down to the content of the innermost section. The form is told without
places and without the rules that are read, field by field. A field that is null counts as left out,
except where a list is expected.
-/
namespace Traceability

namespace RuleForm

abbrev Fields := List (Text × Value)

/-! ## Values of fields -/

def IsText (v : Value) : Prop := ∃ t, v = .text t

def IsFilledText (v : Value) : Prop := ∃ t, v = .text t ∧ Text.allBlank t = false

def IsFlag (v : Value) : Prop := ∃ b, v = .bool b

def IsCount (least : Nat) (v : Value) : Prop := ∃ n : Int, v = .int n ∧ least ≤ n

def IsLevel (v : Value) : Prop := ∃ n : Int, v = .int n ∧ 1 ≤ n ∧ n ≤ 6

def IsColumns (v : Value) : Prop := ∃ items, v = .list items ∧ items ≠ [] ∧ ∀ i ∈ items, IsText i

def IsTable (form : Fields → Prop) (v : Value) : Prop := ∃ entries, v = .table entries ∧ form entries

/-- Whether a field is left out or null, or its value has a form. -/
def OrNull (form : Value → Prop) (v : Value) : Prop := v = .null ∨ form v

/-- Whether a field is left out, or is a list of values that have a form. -/
def ListOf (form : Value → Prop) (field? : Option Value) : Prop :=
  ∀ v, field? = some v → ∃ items, v = .list items ∧ ∀ item ∈ items, form item

variable {form : Value → Prop} {field? : Option Value}

theorem listOf_iff (place : Text) : ListOf form field? ↔
    ∃ items, RuleReading.list place field? = .ok items ∧ ∀ item ∈ items, form item := by
  cases field? with
  | none =>
    constructor
    · intro _
      exact ⟨[], rfl, List.forall_mem_nil _⟩
    · rintro _ v ⟨⟩
  | some v =>
    constructor
    · intro listed
      obtain ⟨items, rfl, each⟩ := listed v rfl
      exact ⟨items, rfl, each⟩
    · rintro ⟨items, read, each⟩ _ ⟨⟩
      cases v <;> cases read
      exact ⟨_, rfl, each⟩

/-! ## Patterns -/

variable [CharacterNames]

def IsPattern (v : Value) : Prop := ∃ t, v = .text t ∧ PatternNode.Readable t

def IsFilledPattern (v : Value) : Prop :=
  ∃ t, v = .text t ∧ Text.allBlank t = false ∧ PatternNode.Readable t

/-- A heading is a pattern only where it has special characters. -/
def IsHeading (v : Value) : Prop := ∃ t, v = .text t ∧ Text.allBlank t = false ∧
  (HeadingPattern.isLiteral t = true ∨ PatternNode.Readable t)

/-! ## Content -/

structure IsCondition (entries : Fields) : Prop where
  heading : OrNull IsPattern (Value.field entries "heading-matches")
  notHeading : OrNull IsPattern (Value.field entries "heading-not-matches")
  given : Value.field entries "heading-matches" ≠ .null ∨
    Value.field entries "heading-not-matches" ≠ .null

@[mk_iff]
structure IsPatternDemand (entries : Fields) : Prop where
  pattern : IsFilledPattern (Value.field entries "pattern")
  label : OrNull IsText (Value.field entries "label")
  description : OrNull IsText (Value.field entries "description")
  required : OrNull IsFlag (Value.field entries "required")
  prohibited : OrNull IsFlag (Value.field entries "prohibited")

@[mk_iff]
structure IsListDemand (entries : Fields) : Prop where
  pattern : IsFilledPattern (Value.field entries "pattern")
  least : OrNull (IsCount 0) (Value.field entries "min")
  label : OrNull IsText (Value.field entries "label")

@[mk_iff]
structure IsTableDemand (entries : Fields) : Prop where
  columns : IsColumns (Value.field entries "columns")
  heading : OrNull IsText (Value.field entries "heading")
  rows : OrNull (IsCount 0) (Value.field entries "min-rows")

@[mk_iff]
structure IsCodeDemand (entries : Fields) : Prop where
  on : Value.field entries "code-block" = .bool true
  label : OrNull IsText (Value.field entries "label")

@[mk_iff]
structure IsMentionDemand (entries : Fields) : Prop where
  text : IsFilledText (Value.field entries "heading-or-text")
  required : OrNull IsFlag (Value.field entries "required")

/-- The keys that tell what is demanded, and the form that each of them asks for. -/
def demandForms : List (Text × (Fields → Prop)) :=
  [("pattern", IsPatternDemand),
   ("list", fun entries => IsTable IsListDemand (Value.field entries "list")),
   ("table", fun entries => IsTable IsTableDemand (Value.field entries "table")),
   ("code-block", IsCodeDemand),
   ("heading-or-text", IsMentionDemand)]

/-- Whether fields have the form that the first key asks for which is there, even with null. -/
def IsDemand (entries : Fields) : Prop :=
  ∃ form ∈ demandForms.find? fun form => (Value.field? entries form.1).isSome, form.2 entries

@[mk_iff]
structure IsContent (entries : Fields) : Prop where
  condition : OrNull (IsTable IsCondition) (Value.field entries "when")
  demand : IsDemand entries

/-! ## Sections and documents -/

/-- The fields of a section, except for the sections in it. -/
structure IsTitled (entries : Fields) : Prop where
  heading : IsHeading (Value.field entries "heading")
  level : IsLevel (Value.field entries "level")
  required : OrNull IsFlag (Value.field entries "required")
  repeatable : OrNull IsFlag (Value.field entries "repeatable")
  description : OrNull IsText (Value.field entries "description")
  content : ListOf (IsTable IsContent) (Value.field? entries "contains")

inductive IsSection : Value → Prop
  | table {entries : Fields} (titled : IsTitled entries)
    (listed : ListOf (fun _ => True) (Value.field? entries "children"))
    (children : ∀ items, Value.field? entries "children" = some (.list items) →
      ∀ item ∈ items, IsSection item) : IsSection (.table entries)

def IsSections (v : Value) : Prop := ∃ items, v = .list items ∧ items ≠ [] ∧ ∀ i ∈ items, IsSection i

@[mk_iff]
structure IsRuleFile (entries : Fields) : Prop where
  target : IsFilledText (Value.field entries "target-files")
  sections : OrNull IsSections (Value.field entries "sections")
  prohibited : ListOf IsText (Value.field? entries "sections-prohibited")
  limit : OrNull (IsCount 1) (Value.field entries "line-limit")
  description : OrNull IsText (Value.field entries "description")
  sample : OrNull IsText (Value.field entries "example")

end RuleForm

namespace RuleReading

open RuleForm

/-- Whether a value can be read. -/
def Succeeds {α : Type} (reading : RuleReading α) : Prop := ∃ a, reading = .ok a

variable {α β : Type} {x : RuleReading α} {g : α → RuleReading β} {P Q : Prop} {place t : Text}
  {entries : Fields} {v : Value}

theorem succeeds_pure (a : α) : Succeeds (pure a) ↔ True := iff_true_intro ⟨a, rfl⟩

theorem not_succeeds_refuse (what : RuleFlaw) : ¬ Succeeds (refuse place what : RuleReading α) := by
  rintro ⟨_, ⟨⟩⟩

theorem succeeds_bind_iff : Succeeds (x >>= g) ↔ ∃ a, x = .ok a ∧ Succeeds (g a) := by
  simp only [Succeeds, bind_eq_ok_iff]
  tauto

/-- A reading in two steps, where the second step hangs on the first one only by that it comes
about. -/
theorem succeeds_bind (first : Succeeds x ↔ P)
    (next : ∀ a, x = .ok a → (Succeeds (g a) ↔ Q)) : Succeeds (x >>= g) ↔ P ∧ Q := by
  rw [succeeds_bind_iff, ← first]
  constructor
  · rintro ⟨a, read, rest⟩
    exact ⟨⟨a, read⟩, (next a read).mp rest⟩
  · rintro ⟨⟨a, read⟩, rest⟩
    exact ⟨a, read, (next a read).mpr rest⟩

theorem succeeds_last (first : Succeeds x ↔ P) {f : α → β} :
    Succeeds (x >>= fun a => pure (f a)) ↔ P :=
  (succeeds_bind first fun a _ => succeeds_pure (f a)).trans (iff_of_eq (and_true P))

/-! ## Values without patterns -/

theorem filledText_eq_ok_iff :
    filledText place v = .ok t ↔ v = .text t ∧ Text.allBlank t = false := by
  cases v with
  | text t' =>
    rw [filledText]
    split
    · next blank =>
      simp only [refuse, reduceCtorEq, Value.text.injEq, false_iff, not_and]
      rintro rfl
      simp [blank]
    · next filled =>
      simp only [Except.ok.injEq, Value.text.injEq]
      constructor
      · rintro rfl
        exact ⟨rfl, by simpa using filled⟩
      · exact And.left
  | _ => simp [filledText, refuse]

theorem succeeds_filledText : Succeeds (filledText place v) ↔ IsFilledText v :=
  exists_congr fun _ => filledText_eq_ok_iff

theorem succeeds_behindText {g : Text → RuleReading α} : Succeeds (filledText place v >>= g) ↔
    ∃ t, v = .text t ∧ Text.allBlank t = false ∧ Succeeds (g t) := by
  rw [succeeds_bind_iff]
  exact exists_congr fun t => (and_congr_left' filledText_eq_ok_iff).trans and_assoc

theorem text?_eq_ok_iff {t? : Option Text} :
    text? place v = .ok t? ↔ v = t?.elim .null .text := by
  cases v <;> cases t? <;> simp [text?, refuse, eq_comm]

theorem elim_eq_null_iff {t? : Option Text} : t?.elim Value.null .text = .null ↔ t? = none := by
  cases t? <;> simp

theorem succeeds_text? : Succeeds (text? place v) ↔ OrNull IsText v := by
  cases v <;> simp [Succeeds, text?, refuse, OrNull, IsText]

theorem succeeds_flag (fallback : Bool) : Succeeds (flag place fallback v) ↔ OrNull IsFlag v := by
  cases v <;> simp [Succeeds, flag, refuse, OrNull, IsFlag]

theorem succeeds_count (fallback least : Nat) :
    Succeeds (count place fallback least v) ↔ OrNull (IsCount least) v := by
  cases v with
  | int n =>
    by_cases small : n < least
    · simp [Succeeds, count, refuse, OrNull, IsCount, small]
    · simp [Succeeds, count, OrNull, IsCount, small, Int.not_lt.mp small]
  | _ => simp [Succeeds, count, refuse, OrNull, IsCount]

theorem succeeds_level : Succeeds (level place v) ↔ IsLevel v := by
  cases v with
  | int n =>
    by_cases within : 1 ≤ n ∧ n ≤ 6
    · simp [Succeeds, level, IsLevel, within]
    · have other : (1 ≤ n && n ≤ 6) = false := by simpa using within
      simp [Succeeds, level, refuse, IsLevel, within, other]
  | _ => simp [Succeeds, level, refuse, IsLevel]

theorem exists_texts?_iff (items : List Value) :
    (∃ ts, Value.texts? items = some ts) ↔ ∀ item ∈ items, IsText item := by
  induction items with
  | nil => simp [Value.texts?]
  | cons item rest ih =>
    rw [List.forall_mem_cons, ← ih]
    cases item with
    | text t => cases read : Value.texts? rest <;> simp [Value.texts?, Value.text?, IsText, read]
    | _ => simp [Value.texts?, Value.text?, IsText]

theorem succeeds_columns : Succeeds (columns place v) ↔ IsColumns v := by
  cases v with
  | list items =>
    cases items with
    | nil => simp [Succeeds, columns, refuse, IsColumns]
    | cons item rest =>
      have each := exists_texts?_iff (item :: rest)
      cases read : Value.texts? (item :: rest) <;>
        simpa [Succeeds, columns, refuse, IsColumns, read] using each
  | _ => simp [Succeeds, columns, refuse, IsColumns]

theorem succeeds_table {form : Fields → Prop} {g : Fields → RuleReading α}
    (inner : ∀ entries, Succeeds (g entries) ↔ form entries) :
    Succeeds (table place v >>= g) ↔ IsTable form v := by
  rw [succeeds_bind_iff]
  refine exists_congr fun entries => ?_
  rw [inner]
  cases v <;> simp [table, refuse]

theorem succeeds_texts {field? : Option Value} :
    Succeeds (texts place field?) ↔ ListOf IsText field? := by
  cases field? with
  | none => exact iff_of_true ⟨[], rfl⟩ (by rintro _ ⟨⟩)
  | some v =>
    cases v with
    | list items =>
      have each := exists_texts?_iff items
      cases read : Value.texts? items <;> simpa [Succeeds, texts, refuse, ListOf, read] using each
    | _ => simp [Succeeds, texts, refuse, ListOf]

theorem succeeds_lineLimit : Succeeds (lineLimit v) ↔ OrNull (IsCount 1) v := by
  cases v with
  | null => exact iff_of_true ⟨none, rfl⟩ (.inl rfl)
  | int n =>
    have counted : Succeeds (count "line-limit" 0 1 (.int n)) ↔ OrNull (IsCount 1) (.int n) :=
      succeeds_count 0 1
    rw [← counted]
    change Succeeds ((count "line-limit" 0 1 (.int n)).map some) ↔ _
    cases count "line-limit" 0 1 (.int n) <;> simp [Succeeds, Except.map]
  | _ => simp [Succeeds, lineLimit, count, refuse, OrNull, IsCount, Except.map]

theorem field_of_some {key : Text} (there : Value.field? entries key = some v) :
    Value.field entries key = v := by
  rw [Value.field, there, Option.getD_some]

theorem succeeds_tableDemand : Succeeds (tableDemand place v) ↔ IsTable IsTableDemand v := by
  refine succeeds_table fun entries => ?_
  rw [isTableDemand_iff]
  refine succeeds_bind succeeds_columns fun _ _ => ?_
  refine succeeds_bind succeeds_text? fun _ _ => ?_
  exact succeeds_last (succeeds_count 0 0)

theorem succeeds_codeDemand :
    Succeeds (codeDemand place entries (Value.field entries "code-block")) ↔
      IsCodeDemand entries := by
  rw [isCodeDemand_iff]
  generalize Value.field entries "code-block" = v
  unfold codeDemand
  split
  · exact (succeeds_last succeeds_text?).trans (and_iff_right rfl).symm
  · next off => exact iff_of_false (not_succeeds_refuse _) fun ⟨on, _⟩ => off on

theorem succeeds_mentionDemand :
    Succeeds (mentionDemand place entries (Value.field entries "heading-or-text")) ↔
      IsMentionDemand entries := by
  rw [isMentionDemand_iff, mentionDemand]
  refine succeeds_bind succeeds_filledText fun _ _ => ?_
  exact succeeds_last (succeeds_flag true)

/-- A list that is read before others, and its items after them. -/
theorem listOf_of_list {form : Value → Prop} {field? : Option Value} {items : List Value}
    (read : list place field? = .ok items) : ListOf form field? ↔ ∀ item ∈ items, form item := by
  rw [listOf_iff place, read]
  simp

theorem not_listOf_of_list {form : Value → Prop} {field? : Option Value} {e : RuleFault}
    (failed : list place field? = .error e) : ¬ ListOf form field? := by
  rw [listOf_iff place, failed]
  rintro ⟨_, ⟨⟩, _⟩

/-! ## Patterns -/

variable [CharacterNames]

theorem succeeds_pattern_iff : Succeeds (pattern place t) ↔ PatternNode.Readable t := by
  constructor
  · rintro ⟨_, done⟩
    exact (readable_of_pattern done).2
  · rintro ⟨node, read⟩
    have own : PatternNode.ofText t = .ok node := read
    exact ⟨t, by rw [pattern, own]⟩

theorem succeeds_filledPattern (place place' : Text) (v : Value) :
    Succeeds (filledText place v >>= pattern place') ↔ IsFilledPattern v :=
  succeeds_behindText.trans <|
    exists_congr fun _ => and_congr_right' (and_congr_right' succeeds_pattern_iff)

theorem succeeds_heading : Succeeds (heading place v) ↔ IsHeading v := by
  refine succeeds_behindText.trans (exists_congr fun t => and_congr_right' (and_congr_right' ?_))
  split
  · next literal => exact iff_of_true ⟨t, rfl⟩ (.inl literal)
  · next special => rw [succeeds_pattern_iff, or_iff_right special]

/-! ## Content -/

theorem succeeds_pattern? {t? : Option Text} :
    Succeeds (pattern? place t?) ↔ ∀ t ∈ t?, PatternNode.Readable t := by
  cases t? with
  | none => exact iff_of_true ⟨(), rfl⟩ (by simp)
  | some t =>
    have one : Succeeds (pattern? place (some t)) ↔ Succeeds (pattern place t) := by
      rw [pattern?]
      cases pattern place t <;> simp [Succeeds, Except.map]
    simpa using one.trans succeeds_pattern_iff

theorem orNull_isPattern_iff :
    OrNull IsPattern v ↔ ∃ t? : Option Text, v = t?.elim .null .text ∧
      ∀ t ∈ t?, PatternNode.Readable t := by
  simp [OrNull, IsPattern, Option.exists]

/-- The patterns of a condition, read from its two fields. -/
theorem succeeds_given {here notHere : Text} {heading? notHeading? : Option Text} :
    Succeeds (if heading? = none && notHeading? = none then refuse place .noCondition
      else do
        pattern? here heading?
        pattern? notHere notHeading?
        pure (some (RuleCondition.mk heading? notHeading?))) ↔
      (heading? ≠ none ∨ notHeading? ≠ none) ∧ (∀ t ∈ heading?, PatternNode.Readable t) ∧
        ∀ t ∈ notHeading?, PatternNode.Readable t := by
  split
  · next none =>
    rw [Bool.and_eq_true, decide_eq_true_eq, decide_eq_true_eq] at none
    exact iff_of_false (not_succeeds_refuse _) fun ⟨given, _⟩ =>
      given.elim (fun some => some none.1) fun some => some none.2
  · next given =>
    rw [Bool.and_eq_true, decide_eq_true_eq, decide_eq_true_eq, not_and_or] at given
    rw [and_iff_right given]
    exact succeeds_bind succeeds_pattern? fun _ _ => succeeds_last succeeds_pattern?

theorem isCondition_iff : IsCondition entries ↔ ∃ heading? : Option Text,
    Value.field entries "heading-matches" = heading?.elim .null .text ∧
      ∃ notHeading? : Option Text,
        Value.field entries "heading-not-matches" = notHeading?.elim .null .text ∧
          (heading? ≠ none ∨ notHeading? ≠ none) ∧ (∀ t ∈ heading?, PatternNode.Readable t) ∧
            ∀ t ∈ notHeading?, PatternNode.Readable t := by
  constructor
  · rintro ⟨heading, notHeading, given⟩
    obtain ⟨heading?, here, readable⟩ := orNull_isPattern_iff.mp heading
    obtain ⟨notHeading?, notHere, readable'⟩ := orNull_isPattern_iff.mp notHeading
    rw [here, notHere] at given
    refine ⟨heading?, here, notHeading?, notHere, ?_, readable, readable'⟩
    exact given.imp (mt elim_eq_null_iff.mpr) (mt elim_eq_null_iff.mpr)
  · rintro ⟨heading?, here, notHeading?, notHere, given, readable, readable'⟩
    refine ⟨orNull_isPattern_iff.mpr ⟨heading?, here, readable⟩,
      orNull_isPattern_iff.mpr ⟨notHeading?, notHere, readable'⟩, ?_⟩
    rw [here, notHere]
    exact given.imp (mt elim_eq_null_iff.mp) (mt elim_eq_null_iff.mp)

theorem succeeds_condition : Succeeds (condition place v) ↔ OrNull (IsTable IsCondition) v := by
  cases v with
  | null => exact iff_of_true ⟨none, rfl⟩ (.inl rfl)
  | table entries =>
    have given : OrNull (IsTable IsCondition) (.table entries) ↔
        IsTable IsCondition (.table entries) := by simp [OrNull]
    rw [given]
    refine succeeds_table fun entries => ?_
    rw [isCondition_iff, succeeds_bind_iff]
    refine exists_congr fun heading? => and_congr text?_eq_ok_iff ?_
    rw [succeeds_bind_iff]
    exact exists_congr fun notHeading? => and_congr text?_eq_ok_iff succeeds_given
  | _ => simp [Succeeds, condition, table, refuse, OrNull, IsTable, bind, Except.bind]

theorem succeeds_patternDemand :
    Succeeds (patternDemand place entries (Value.field entries "pattern")) ↔
      IsPatternDemand entries := by
  rw [isPatternDemand_iff, patternDemand, ← bind_assoc]
  refine succeeds_bind (succeeds_filledPattern _ _ _) fun _ _ => ?_
  refine succeeds_bind succeeds_text? fun _ _ => ?_
  refine succeeds_bind succeeds_text? fun _ _ => ?_
  refine succeeds_bind (succeeds_flag true) fun _ _ => ?_
  exact succeeds_last (succeeds_flag false)

theorem succeeds_listDemand : Succeeds (listDemand place v) ↔ IsTable IsListDemand v := by
  refine succeeds_table fun entries => ?_
  rw [isListDemand_iff, ← bind_assoc]
  refine succeeds_bind (succeeds_filledPattern _ _ _) fun _ _ => ?_
  refine succeeds_bind (succeeds_count 1 0) fun _ _ => ?_
  exact succeeds_last succeeds_text?

/-- The keys are tried in the order in which the forms are listed. -/
theorem succeeds_demand : Succeeds (demand place entries) ↔ IsDemand entries := by
  have one (form : Text × (Fields → Prop)) :
      (∃ form' ∈ some form, form'.2 entries) ↔ form.2 entries := by simp
  unfold demand IsDemand demandForms
  dsimp only
  split
  · next v here =>
    rw [← field_of_some here, succeeds_patternDemand]
    simp only [List.find?_cons, here, Option.isSome_some, one]
  · next v absent here =>
    rw [← field_of_some here, succeeds_listDemand]
    simp only [List.find?_cons, absent, here, Option.isSome_some, Option.isSome_none, one]
  · next v absent absent' here =>
    rw [← field_of_some here, succeeds_tableDemand]
    simp only [List.find?_cons, absent, absent', here, Option.isSome_some, Option.isSome_none, one]
  · next v absent absent' absent'' here =>
    rw [← field_of_some here, succeeds_codeDemand]
    simp only [List.find?_cons, absent, absent', absent'', here, Option.isSome_some,
      Option.isSome_none, one]
  · next v absent absent' absent'' absent''' here =>
    rw [← field_of_some here, succeeds_mentionDemand]
    simp only [List.find?_cons, absent, absent', absent'', absent''', here, Option.isSome_some,
      Option.isSome_none, one]
  · next absent absent' absent'' absent''' absent'''' =>
    refine iff_of_false (not_succeeds_refuse _) ?_
    simp only [List.find?_cons, List.find?_nil, absent, absent', absent'', absent''', absent'''',
      Option.isSome_none]
    rintro ⟨_, ⟨⟩, _⟩

theorem succeeds_contentRule : Succeeds (contentRule place v) ↔ IsTable IsContent v := by
  refine succeeds_table fun entries => ?_
  rw [isContent_iff]
  refine succeeds_bind succeeds_condition fun _ _ => ?_
  exact succeeds_last succeeds_demand

theorem succeeds_contentRules {index : Nat} {items : List Value} :
    Succeeds (contentRules place index items) ↔ ∀ item ∈ items, IsTable IsContent item := by
  induction items generalizing index with
  | nil => exact iff_of_true ⟨[], rfl⟩ (List.forall_mem_nil _)
  | cons item rest ih =>
    rw [List.forall_mem_cons, contentRules]
    exact succeeds_bind succeeds_contentRule fun _ _ => succeeds_last ih

/-! ## Sections and documents -/

theorem isSection_iff (read : table place v = .ok entries) : IsSection v ↔
    IsHeading (Value.field entries "heading") ∧
    IsLevel (Value.field entries "level") ∧ OrNull IsFlag (Value.field entries "required") ∧
    OrNull IsFlag (Value.field entries "repeatable") ∧
    OrNull IsText (Value.field entries "description") ∧
    ListOf (IsTable IsContent) (Value.field? entries "contains") ∧
    ListOf IsSection (Value.field? entries "children") := by
  obtain rfl : v = .table entries := by
    cases v <;> cases read
    rfl
  constructor
  · rintro ⟨titled, listed, children⟩
    obtain ⟨heading, level, required, repeatable, description, content⟩ := titled
    refine ⟨heading, level, required, repeatable, description, content, fun v there => ?_⟩
    obtain ⟨items, rfl, _⟩ := listed v there
    exact ⟨items, rfl, children items there⟩
  · rintro ⟨heading, level, required, repeatable, description, content, children⟩
    refine .table ⟨heading, level, required, repeatable, description, content⟩
      (fun v there => ?_) fun items there => ?_
    · obtain ⟨items, rfl, _⟩ := children v there
      exact ⟨items, rfl, fun _ _ => trivial⟩
    · obtain ⟨_, ⟨⟩, each⟩ := children _ there
      exact each

mutual

theorem succeeds_sectionRule {place : Text} {v : Value} :
    Succeeds (sectionRule place v) ↔ IsSection v := by
  unfold sectionRule
  split
  · next e other =>
    refine iff_of_false (by rintro ⟨_, ⟨⟩⟩) ?_
    rintro ⟨⟩
    cases other
  · next entries found =>
    rw [isSection_iff found]
    refine succeeds_bind succeeds_heading fun _ _ => ?_
    refine succeeds_bind succeeds_level fun _ _ => ?_
    split
    · next failed =>
      exact iff_of_false (by rintro ⟨_, ⟨⟩⟩) fun form => not_listOf_of_list failed form.2.2.2.1
    · next failed =>
      exact iff_of_false (by rintro ⟨_, ⟨⟩⟩) fun form => not_listOf_of_list failed form.2.2.2.2
    · next content items contains children =>
      have smaller : sizeOf items < sizeOf v :=
        Nat.lt_of_le_of_lt (sizeOf_list children) (sizeOf_table found)
      rw [listOf_of_list contains, listOf_of_list children]
      refine succeeds_bind (succeeds_flag false) fun _ _ => ?_
      refine succeeds_bind (succeeds_flag false) fun _ _ => ?_
      refine succeeds_bind succeeds_text? fun _ _ => ?_
      refine succeeds_bind succeeds_contentRules fun _ _ => ?_
      change Succeeds (sectionRules _ 0 items >>= fun _ => pure _) ↔ _
      exact succeeds_last succeeds_sectionRules
termination_by sizeOf v

theorem succeeds_sectionRules {place : Text} {index : Nat} {items : List Value} :
    Succeeds (sectionRules place index items) ↔ ∀ item ∈ items, IsSection item := by
  cases items with
  | nil =>
    rw [sectionRules]
    exact iff_of_true ⟨[], rfl⟩ (List.forall_mem_nil _)
  | cons item rest =>
    rw [List.forall_mem_cons, sectionRules]
    exact succeeds_bind succeeds_sectionRule fun _ _ => succeeds_last succeeds_sectionRules
termination_by sizeOf items

end

theorem succeeds_documentSections : Succeeds (documentSections v) ↔ OrNull IsSections v := by
  cases v with
  | null => exact iff_of_true ⟨[], rfl⟩ (.inl rfl)
  | list items =>
    cases items with
    | nil => simp [Succeeds, documentSections, refuse, OrNull, IsSections]
    | cons item rest =>
      refine succeeds_sectionRules.trans ?_
      simp [OrNull, IsSections]
  | _ => simp [Succeeds, documentSections, refuse, OrNull, IsSections]

end RuleReading

end Traceability
