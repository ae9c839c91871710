import Traceability.Path
import Traceability.Rule.Basic
import Traceability.Value

/-!
# Reading rules

A rule file is read from a value. The first flaw ends the reading; it is named by the place where it
was found.
-/
namespace Traceability

inductive RuleFlaw where
  | invalidPattern (pattern : Text) (error : PatternError)
  | noFilledText
  | noText
  | noFlag
  | noCount (least : Nat)
  | noTable
  | noCondition
  | noColumns
  | notTrue
  | noDemand
  | noLevel
  | noList
  | noFilledList
  | noTexts
deriving DecidableEq, Repr

def RuleFlaw.message : RuleFlaw → Text
  | .invalidPattern pattern _ => "invalid regular expression " ++ Text.quoted pattern
  | .noFilledText => "expected a non-empty string"
  | .noText => "expected a string"
  | .noFlag => "expected a boolean"
  | .noCount least => "expected an integer >= " ++ Text.ofNat least
  | .noTable => "expected a mapping"
  | .noCondition => "requires heading-matches or heading-not-matches"
  | .noColumns => "expected a non-empty list of strings"
  | .notTrue => "must be true"
  | .noDemand => "has no recognized rule type"
  | .noLevel => "expected an integer between 1 and 6"
  | .noList => "expected a list"
  | .noFilledList => "expected a non-empty list"
  | .noTexts => "expected a list of strings"

/-- Why no rules can be read from a value: a flaw at a place, or a pattern that asks for what cannot be
had. -/
inductive RuleFault where
  | flaw (place : Text) (what : RuleFlaw)
  | pattern (pattern : Text) (error : PatternError)
deriving DecidableEq, Repr

abbrev RuleReading := Except RuleFault

namespace RuleReading

def refuse {α : Type} (place : Text) (what : RuleFlaw) : RuleReading α := .error (.flaw place what)

def table (place : Text) : Value → RuleReading (List (Text × Value))
  | .table entries => .ok entries
  | _ => refuse place .noTable

def list (place : Text) : Option Value → RuleReading (List Value)
  | none => .ok []
  | some (.list items) => .ok items
  | some _ => refuse place .noList

theorem sizeOf_field? {entries : List (Text × Value)} {name : Text} {v : Value}
    (h : Value.field? entries name = some v) : sizeOf v < sizeOf entries := by
  unfold Value.field? at h
  induction entries with
  | nil => simp at h
  | cons e rest ih =>
    obtain ⟨k, w⟩ := e
    simp only [List.lookup_cons] at h
    split at h
    · simp only [Option.some.injEq] at h
      subst h
      simp; omega
    · have := ih h
      simp; omega

theorem sizeOf_list {place : Text} {entries : List (Text × Value)} {name : Text}
    {items : List Value} (h : list place (Value.field? entries name) = .ok items) :
    sizeOf items ≤ sizeOf entries := by
  cases hf : Value.field? entries name with
  | none =>
    simp only [hf, list, Except.ok.injEq] at h
    subst h
    cases entries <;> simp
    omega
  | some v =>
    have hs := sizeOf_field? hf
    cases v <;> simp only [hf, list, refuse, Except.ok.injEq, reduceCtorEq] at h
    subst h
    simp at hs
    omega

theorem sizeOf_table {place : Text} {v : Value} {entries : List (Text × Value)}
    (h : table place v = .ok entries) : sizeOf entries < sizeOf v := by
  cases v <;> simp only [table, refuse, Except.ok.injEq, reduceCtorEq] at h
  subst h
  simp

variable [CharacterNames]

def pattern (place t : Text) : RuleReading Text :=
  match PatternNode.ofText t with
  | .ok _ => .ok t
  | .error e => if e.isNotation then refuse place (.invalidPattern t e) else .error (.pattern t e)

def filledText (place : Text) : Value → RuleReading Text
  | .text t => if Text.allBlank t then refuse place .noFilledText else .ok t
  | _ => refuse place .noFilledText

def text? (place : Text) : Value → RuleReading (Option Text)
  | .null => .ok none
  | .text t => .ok (some t)
  | _ => refuse place .noText

def flag (place : Text) (fallback : Bool) : Value → RuleReading Bool
  | .null => .ok fallback
  | .bool b => .ok b
  | _ => refuse place .noFlag

def count (place : Text) (fallback least : Nat) : Value → RuleReading Nat
  | .null => .ok fallback
  | .int n => if n < least then refuse place (.noCount least) else .ok n.toNat
  | _ => refuse place (.noCount least)

def fieldOf (place name : Text) : Text := place ++ "." ++ name

def itemOf (place : Text) (index : Nat) : Text := place ++ "[" ++ Text.ofNat index ++ "]"

def pattern? (place : Text) : Option Text → RuleReading Unit
  | none => .ok ()
  | some t => (pattern place t).map fun _ => ()

def condition (place : Text) : Value → RuleReading (Option RuleCondition)
  | .null => .ok none
  | v => do
    let entries ← table place v
    let here := fieldOf place "heading-matches"
    let notHere := fieldOf place "heading-not-matches"
    let heading ← text? here (Value.field entries "heading-matches")
    let notHeading ← text? notHere (Value.field entries "heading-not-matches")
    if heading = none && notHeading = none then refuse place .noCondition
    else
      pattern? here heading
      pattern? notHere notHeading
      pure (some ⟨heading, notHeading⟩)

def patternDemand (place : Text) (entries : List (Text × Value)) (v : Value) :
    RuleReading Demand := do
  let here := fieldOf place "pattern"
  let found ← pattern here (← filledText here v)
  let label ← text? (fieldOf place "label") (Value.field entries "label")
  let description ← text? (fieldOf place "description") (Value.field entries "description")
  let required ← flag (fieldOf place "required") true (Value.field entries "required")
  let prohibited ← flag (fieldOf place "prohibited") false (Value.field entries "prohibited")
  pure (.pattern found label description required prohibited)

def listDemand (place : Text) (v : Value) : RuleReading Demand := do
  let here := fieldOf place "list"
  let entries ← table here v
  let found ← filledText (fieldOf here "pattern") (Value.field entries "pattern")
  let found ← pattern (fieldOf here "pattern") found
  let least ← count (fieldOf here "min") 1 0 (Value.field entries "min")
  let label ← text? (fieldOf here "label") (Value.field entries "label")
  pure (.list found least label)

def columns (place : Text) : Value → RuleReading (List Text)
  | .list (v :: rest) =>
    match Value.texts? (v :: rest) with
    | some ts => .ok ts
    | none => refuse place .noColumns
  | _ => refuse place .noColumns

def tableDemand (place : Text) (v : Value) : RuleReading Demand := do
  let here := fieldOf place "table"
  let entries ← table here v
  let names ← columns (fieldOf here "columns") (Value.field entries "columns")
  let heading ← text? (fieldOf here "heading") (Value.field entries "heading")
  let rows ← count (fieldOf here "min-rows") 0 0 (Value.field entries "min-rows")
  pure (.table names rows heading)

def codeDemand (place : Text) (entries : List (Text × Value)) : Value → RuleReading Demand
  | .bool true => do
    pure (.codeBlock (← text? (fieldOf place "label") (Value.field entries "label")))
  | _ => refuse (fieldOf place "code-block") .notTrue

def mentionDemand (place : Text) (entries : List (Text × Value)) (v : Value) :
    RuleReading Demand := do
  let text ← filledText (fieldOf place "heading-or-text") v
  let required ← flag (fieldOf place "required") true (Value.field entries "required")
  pure (.mention text required)

/-- The demand of a content rule: that of the first known key. -/
def demand (place : Text) (entries : List (Text × Value)) : RuleReading Demand :=
  let field? (name : Text) := Value.field? entries name
  match field? "pattern", field? "list", field? "table", field? "code-block",
    field? "heading-or-text" with
  | some v, _, _, _, _ => patternDemand place entries v
  | none, some v, _, _, _ => listDemand place v
  | none, none, some v, _, _ => tableDemand place v
  | none, none, none, some v, _ => codeDemand place entries v
  | none, none, none, none, some v => mentionDemand place entries v
  | none, none, none, none, none => refuse place .noDemand

def contentRule (place : Text) (v : Value) : RuleReading ContentRule := do
  let entries ← table place v
  let condition ← condition (fieldOf place "when") (Value.field entries "when")
  pure ⟨← demand place entries, condition⟩

def contentRules (place : Text) : (index : Nat) → List Value → RuleReading (List ContentRule)
  | _, [] => .ok []
  | index, v :: rest => do
    let first ← contentRule (itemOf place index) v
    pure (first :: (← contentRules place (index + 1) rest))

def heading (place : Text) (v : Value) : RuleReading Text := do
  let t ← filledText place v
  if HeadingPattern.isLiteral t then pure t else pattern place t

def level (place : Text) : Value → RuleReading Nat
  | .int n => if 1 ≤ n && n ≤ 6 then .ok n.toNat else refuse place .noLevel
  | _ => refuse place .noLevel

mutual

def sectionRule (place : Text) (v : Value) : RuleReading SectionRule :=
  match ht : table place v with
  | .error e => .error e
  | .ok entries => do
    let title ← heading (fieldOf place "heading") (Value.field entries "heading")
    let depth ← level (fieldOf place "level") (Value.field entries "level")
    match list (fieldOf place "contains") (Value.field? entries "contains"),
        hc : list (fieldOf place "children") (Value.field? entries "children") with
    | .error e, _ => .error e
    | .ok _, .error e => .error e
    | .ok content, .ok children =>
      let required ← flag (fieldOf place "required") false (Value.field entries "required")
      let repeatable ← flag (fieldOf place "repeatable") false (Value.field entries "repeatable")
      let description ← text? (fieldOf place "description") (Value.field entries "description")
      let content ← contentRules (fieldOf place "contains") 0 content
      have : sizeOf children < sizeOf v := Nat.lt_of_le_of_lt (sizeOf_list hc) (sizeOf_table ht)
      let children ← sectionRules (fieldOf place "children") 0 children
      pure ⟨title, depth, required, repeatable, description, content, children⟩
termination_by sizeOf v

def sectionRules (place : Text) (index : Nat) (items : List Value) :
    RuleReading (List SectionRule) :=
  match items with
  | [] => .ok []
  | v :: rest => do
    let first ← sectionRule (itemOf place index) v
    pure (first :: (← sectionRules place (index + 1) rest))
termination_by sizeOf items

end

def documentSections : Value → RuleReading (List SectionRule)
  | .null => .ok []
  | .list (v :: rest) => sectionRules "sections" 0 (v :: rest)
  | _ => refuse "sections" .noFilledList

def texts (place : Text) : Option Value → RuleReading (List Text)
  | none => .ok []
  | some (.list items) =>
    match Value.texts? items with
    | some ts => .ok ts
    | none => refuse place .noTexts
  | some _ => refuse place .noTexts

def lineLimit : Value → RuleReading (Option Nat)
  | .null => .ok none
  | v => (count "line-limit" 0 1 v).map some

end RuleReading

open RuleReading in
/-- The rules that a value holds; `source` is the path of their file. -/
def RuleFile.ofValue [CharacterNames] (source : Path) (v : Value) : Except RuleFault RuleFile := do
  let entries ← table "document" v
  let target ← filledText "target-files" (Value.field entries "target-files")
  let sections ← documentSections (Value.field entries "sections")
  let prohibited ← texts "sections-prohibited" (Value.field? entries "sections-prohibited")
  let limit ← RuleReading.lineLimit (Value.field entries "line-limit")
  let description ← text? "description" (Value.field entries "description")
  let sample ← text? "example" (Value.field entries "example")
  pure ⟨source.toText, target, sections, prohibited, description, limit, sample⟩

end Traceability
