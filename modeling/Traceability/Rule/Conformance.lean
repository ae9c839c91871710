import Traceability.Finding
import Traceability.Glob.Mask
import Traceability.Outline.Content
import Traceability.Rule.Basic
import Traceability.Spec.Document

/-!
# Conformance

Documents are held against the rules for them. Among the sections that a rule may speak of, those with
a matching heading at the right level are judged, the first one only unless the rule is repeatable;
then the sections in them are held against the rules for these.
-/
namespace Traceability.Conformance

open Outline

variable [CharacterNames]

/-- Judging may come upon a heading pattern that cannot be used as a whole. -/
abbrev Judgement := Except UnusablePattern

structure Context where
  path : Text
  source : Text
deriving Repr, Inhabited

def about (ctx : Context) (s : Section) (severity : Severity) (code : FindingCode)
    (message : Text) : Finding :=
  { severity, code, message, path := ctx.path, line := some s.line, ruleSource := some ctx.source,
    rule := some s.heading }

def labelOr (fallback : Text) : Option Text → Text
  | some (c :: label) => c :: label
  | _ => fallback

def missing (ctx : Context) (s : Section) (message : Text) : Finding :=
  about ctx s .error .missingContent message

def hasColumns (columns : List Text) (t : Table) : Bool := columns.all t.header.elem

def nameSuffix : Option Text → Text
  | some (c :: name) => " '" ++ (c :: name) ++ "'"
  | _ => []

def labelSuffix : Option Text → Text
  | some (c :: label) => " (" ++ (c :: label) ++ ")"
  | _ => []

def judgePattern (ctx : Context) (s : Section) (pattern : Text) (label : Option Text)
    (required prohibited : Bool) : Judgement (List Finding) := do
  let node ← PatternNode.use { multiline := true } pattern
  let found := node.occursIn s.fullText
  let name := labelOr pattern label
  if prohibited then
    return if found then
      [about ctx s .warning .prohibited
        ("Section '" ++ s.heading ++ "' contains prohibited content: " ++ name)]
    else []
  else
    return if !found && required then
      [missing ctx s ("Section '" ++ s.heading ++ "' is missing required content: " ++ name)]
    else []

def judgeList (ctx : Context) (s : Section) (pattern : Text) (least : Nat)
    (label : Option Text) : Judgement (List Finding) := do
  let items := s.listItems
  let count ← if items = [] then pure 0 else do
    let node ← PatternNode.use {} pattern
    pure (items.countP node.occursIn)
  return if count < least then
    [missing ctx s ("Section '" ++ s.heading ++ "' has " ++ Text.ofNat count ++
      " list item(s) matching " ++ labelOr pattern label ++ ", expected at least " ++
      Text.ofNat least)]
  else []

/-- Holds a section against a demand for a table. The first table with the columns counts. -/
def judgeTable (ctx : Context) (s : Section) (columns : List Text) (leastRows : Nat)
    (heading : Option Text) : List Finding :=
  let name := nameSuffix heading
  match s.tables with
  | [] =>
    [missing ctx s ("Section '" ++ s.heading ++ "' is missing required table" ++ name)]
  | first :: rest =>
    match (first :: rest).find? (hasColumns columns) with
    | none =>
      [about ctx s .error .tableColumns
        ("Table" ++ name ++ " in section '" ++ s.heading ++ "' must have columns " ++
          Text.join ", " columns ++ "; found " ++ Text.join ", " first.header)]
    | some t =>
      if t.rows.length < leastRows then
        [missing ctx s ("Table" ++ name ++ " in section '" ++ s.heading ++ "' has " ++
          Text.ofNat t.rows.length ++ " row(s), expected at least " ++ Text.ofNat leastRows)]
      else []

def mentions (s : Section) (text : Text) : Bool :=
  let word := Text.upper text
  (walkAll s.children).any (fun child => (Text.upper child.heading).includes word) ||
    (Text.upper s.fullText).includes word

def judgeDemand (ctx : Context) (s : Section) : Demand → Judgement (List Finding)
  | .pattern pattern label _ required prohibited =>
    judgePattern ctx s pattern label required prohibited
  | .list pattern least label => judgeList ctx s pattern least label
  | .table columns leastRows heading => .ok (judgeTable ctx s columns leastRows heading)
  | .codeBlock label =>
    .ok (if s.hasFence then []
      else [missing ctx s
        ("Section '" ++ s.heading ++ "' is missing a code block" ++ labelSuffix label)])
  | .mention text required =>
    .ok (if mentions s text || !required then []
      else [missing ctx s
        ("Section '" ++ s.heading ++ "' must mention '" ++ text ++ "' in a heading or its text")])

def judgeContent (ctx : Context) (s : Section) (rule : ContentRule) : Judgement (List Finding) := do
  let applies ← match rule.condition with
    | none => pure true
    | some c => c.holds s.heading
  if applies then judgeDemand ctx s rule.demand else pure []

def wrongLevel (ctx : Context) (rule : Text) (level : Nat) (s : Section) : Finding :=
  { severity := .warning
    code := .wrongLevel
    message := "Section '" ++ s.heading ++ "' should be level " ++ Text.ofNat level ++
      " but is level " ++ Text.ofNat s.level
    path := ctx.path
    line := some s.line
    ruleSource := some ctx.source
    rule := some rule }

def missingSection (ctx : Context) (rule : Text) (level : Nat) : Finding :=
  { severity := .error
    code := .missingSection
    message := "Missing required section: '" ++ rule ++ "' (level " ++ Text.ofNat level ++ ")"
    path := ctx.path
    ruleSource := some ctx.source
    rule := some rule }

mutual

def judgeSections (ctx : Context) : List SectionRule → List Section → Judgement (List Finding)
  | [], _ => .ok []
  | rule :: rest, sections => do
    let first ← judgeRule ctx rule sections
    pure (first ++ (← judgeSections ctx rest sections))

def judgeRule (ctx : Context) : SectionRule → List Section → Judgement (List Finding)
  | ⟨heading, level, required, repeatable, _, content, children⟩, sections => do
    let test ← HeadingPattern.test heading
    let named := sections.filter fun s => test s.heading
    match named.filter (·.level = level), named with
    | [], s :: _ => pure [wrongLevel ctx heading level s]
    | [], [] => pure (if required then [missingSection ctx heading level] else [])
    | first :: others, _ =>
      let judged := if repeatable then first :: others else [first]
      let findings ← judged.mapM fun s => do
        let own ← content.mapM (judgeContent ctx s)
        pure (own.flatten ++ (← judgeSections ctx children (walkAll s.children)))
      pure findings.flatten

end

/-- The lines outside fenced blocks, numbered; here a fence starts with backticks at once. `inside`
holds in a fenced block. -/
def openLines : (inside : Bool) → List (Text × Nat) → List (Text × Nat)
  | _, [] => []
  | inside, (line, number) :: rest =>
    if line.startsWith fenceMark then openLines (!inside) rest
    else if inside then openLines inside rest
    else (line, number) :: openLines inside rest

def judgeProhibited (ctx : Context) (lines : List Text) (word : Text) : List Finding :=
  match (openLines false (lines.zipIdx 1)).find? fun (line, _) => line.includes word with
  | none => []
  | some (_, number) =>
    [{ severity := .warning
       code := .prohibited
       message := "Prohibited formatting '" ++ word ++ "' found"
       path := ctx.path
       line := some (number : Int)
       ruleSource := some ctx.source }]

def judgeLength (ctx : Context) (count : Nat) : Option Nat → List Finding
  | none => []
  | some limit =>
    if limit < count then
      [{ severity := .warning
         code := .lineLimit
         message := "File has " ++ Text.ofNat count ++ " lines, exceeding the limit of " ++
           Text.ofNat limit
         path := ctx.path
         ruleSource := some ctx.source }]
    else []

def judgeDocument (d : Spec.Document) (rules : RuleFile) : Judgement (List Finding) := do
  let outline := Outline.Document.read d.text
  let ctx : Context := ⟨d.path, rules.source⟩
  let sections ← judgeSections ctx rules.sections (walkAll outline.sections)
  pure (sections ++ rules.prohibited.flatMap (judgeProhibited ctx outline.lines) ++
    judgeLength ctx outline.lines.length rules.lineLimit)

def applicable (path : Text) (rules : List RuleFile) : List RuleFile :=
  rules.filter fun r => Glob.covers [r.targetFiles] (.ofText path)

def idleRule (r : RuleFile) : Option Finding :=
  if r.sections.isEmpty && r.prohibited = [] && r.lineLimit = none then
    some
      { severity := .warning
        code := .noRule
        message := "Rule file for '" ++ r.targetFiles ++
          "' declares no sections, prohibitions or line limit"
        path := r.source
        ruleSource := some r.source }
  else none

def judge (documents : List Spec.Document) (rules : List RuleFile) : Judgement (List Finding) := do
  let pairs := documents.flatMap fun d => (applicable d.path rules).map fun r => (d, r)
  let findings ← pairs.mapM fun (d, r) => judgeDocument d r
  pure (rules.filterMap idleRule ++ findings.flatten)

end Traceability.Conformance
