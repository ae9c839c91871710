import Traceability.Command.Words
import Traceability.Project.Trace
import Traceability.Text.Number

/-!
# Commands

What a command line asks for: a check of a project, or a trace. A command line that cannot be
understood asks for nothing. Of an option that is given twice the last value counts, except for
ignored patterns, which are collected.
-/
namespace Traceability

inductive Command where
  | check (root : Path) (config : Option Path) (overrides : ConfigOverrides)
  | trace (root : Path) (config : Option Path) (request : TraceRequest)

namespace Command

def places : Command → List Path
  | .check root config _ => root :: config.toList
  | .trace root config request =>
    root :: config.toList ++ request.task.toList ++ request.file.toList

structure CommonOptions where
  root : Text := "."
  config : Option Text := none
  verbose : Bool := false

structure CheckOptions extends CommonOptions where
  format : Option Text := none
  allowWarnings : Option Bool := none
  specOnly : Option Bool := none
  specIgnore : List Text := []
  codeIgnore : List Text := []

structure TraceFlags extends CommonOptions where
  all : Bool := false
  task : Option Text := none
  file : Option Text := none
  direction : Text := "both"
  depth : Option Text := none
  scope : Option Text := none
  noCode : Bool := false
  noTests : Bool := false
  json : Bool := false
  list : Bool := false
  content : Bool := false
  maxTokens : Option Text := none
  after : Option Text := none
  before : Option Text := none
  context : Option Text := none

def checkForms : List (OptionForm CheckOptions) :=
  [⟨["--root"], .valued fun t s => { s with root := t }⟩,
    ⟨["--config"], .valued fun t s => { s with config := some t }⟩,
    ⟨["--format"], .valued fun t s => { s with format := some t }⟩,
    ⟨["--allow-warnings"], .flag fun s => { s with allowWarnings := some true }⟩,
    ⟨["--no-allow-warnings"], .flag fun s => { s with allowWarnings := some false }⟩,
    ⟨["--spec-only"], .flag fun s => { s with specOnly := some true }⟩,
    ⟨["--no-spec-only"], .flag fun s => { s with specOnly := some false }⟩,
    ⟨["--spec-ignore"], .valued fun t s => { s with specIgnore := s.specIgnore ++ [t] }⟩,
    ⟨["--code-ignore"], .valued fun t s => { s with codeIgnore := s.codeIgnore ++ [t] }⟩,
    ⟨["--verbose", "-v"], .flag fun s => { s with verbose := true }⟩]

def traceForms : List (OptionForm TraceFlags) :=
  [⟨["--root"], .valued fun t s => { s with root := t }⟩,
    ⟨["--config"], .valued fun t s => { s with config := some t }⟩,
    ⟨["--all"], .flag fun s => { s with all := true }⟩,
    ⟨["--task"], .valued fun t s => { s with task := some t }⟩,
    ⟨["--file"], .valued fun t s => { s with file := some t }⟩,
    ⟨["--direction"], .valued fun t s => { s with direction := t }⟩,
    ⟨["--depth"], .valued fun t s => { s with depth := some t }⟩,
    ⟨["--scope"], .valued fun t s => { s with scope := some t }⟩,
    ⟨["--no-code"], .flag fun s => { s with noCode := true }⟩,
    ⟨["--no-tests"], .flag fun s => { s with noTests := true }⟩,
    ⟨["--json"], .flag fun s => { s with json := true }⟩,
    ⟨["--list"], .flag fun s => { s with list := true }⟩,
    ⟨["--content"], .flag fun s => { s with content := true }⟩,
    ⟨["--max-tokens"], .valued fun t s => { s with maxTokens := some t }⟩,
    ⟨["--after-context", "-A"], .valued fun t s => { s with after := some t }⟩,
    ⟨["--before-context", "-B"], .valued fun t s => { s with before := some t }⟩,
    ⟨["--context", "-C"], .valued fun t s => { s with context := some t }⟩,
    ⟨["--verbose", "-v"], .flag fun s => { s with verbose := true }⟩]

def number? (least : Int) (t : Text) : Option Int := (Text.int? t).filter (least ≤ ·)

def optionalNumber? (least : Int) : Option Text → Option (Option Int)
  | none => some none
  | some t => (number? least t).map some

def format? : Option Text → Option (Option ReportFormat)
  | none => some none
  | some t => (ReportFormat.ofWord? t).map some

def ofCheckOptions? (s : CheckOptions) : Option Command := do
  let format ← format? s.format
  pure <| .check (.ofText s.root) (s.config.map .ofText)
    { format
      allowWarnings := s.allowWarnings
      specOnly := s.specOnly
      specIgnore := s.specIgnore
      codeIgnore := s.codeIgnore }

def traceFormat (s : TraceFlags) : TraceFormat :=
  if s.json then .json else if s.list then .list else .tree

def contextLines (before after common : Option Int) : ContextLines :=
  let fallback : ContextLines := {}
  ⟨(before.or common).getD fallback.before, (after.or common).getD fallback.after⟩

def ofTraceFlags? (s : TraceFlags) (ids : List Text) : Option Command := do
  let direction ← Direction.ofWord? s.direction
  let depth ← optionalNumber? 0 s.depth
  let maxTokens ← optionalNumber? 1 s.maxTokens
  let after ← optionalNumber? 0 s.after
  let before ← optionalNumber? 0 s.before
  let common ← optionalNumber? 0 s.context
  pure <| .trace (.ofText s.root) (s.config.map .ofText)
    { ids
      all := s.all
      task := s.task.map .ofText
      file := s.file.map .ofText
      options :=
        { direction, depth, scope := s.scope, noCode := s.noCode, noTests := s.noTests }
      format := traceFormat s
      content := s.content
      maxTokens
      context := contextLines before after common }

def checkOfWords? (words : List Text) : Option Command := do
  match ← readWords checkForms {} words with
  | (s, []) => ofCheckOptions? s
  | _ => none

def traceOfWords? (words : List Text) : Option Command := do
  let (s, ids) ← readWords traceForms {} words
  ofTraceFlags? s ids

def ofWords? : List Text → Option Command
  | ['-', '-'] :: name :: words | name :: words =>
    if name = "check" then checkOfWords? words
    else if name = "trace" then traceOfWords? words
    else none
  | [] => none

end Command

end Traceability
