import Traceability.Excerpt.Budget
import Traceability.Project.Basic
import Traceability.Report.Content
import Traceability.Report.Trace
import Traceability.Trace.Source

/-!
# Tracing in a project

What is asked for — everything, the identifiers of a task file or of a source file, or given ones — is
traced and shown as a tree, as a list of places, as JSON, or as the text behind it.
-/
namespace Traceability

inductive TraceFormat where
  | tree
  | list
  | json
deriving DecidableEq, Repr, Inhabited

structure TraceRequest where
  ids : List Text := []
  all : Bool := false
  task : Option Path := none
  file : Option Path := none
  options : TraceOptions := {}
  format : TraceFormat := .tree
  content : Bool := false
  maxTokens : Option Int := none
  context : ContextLines := {}

structure TraceOutcome where
  text : Text
  isResolved : Bool
  messages : List Text
deriving DecidableEq, Repr

namespace TraceRequest

def querySet? (p : Project) (i : TraceIndex) (r : TraceRequest) : Option QuerySet :=
  if r.all then some ⟨sortBy Text.le i.ids, []⟩
  else match r.task, r.file with
    | some task, _ => some (.ofTask i task.toText (p.disk.text? task))
    | none, some file => some (.ofSource i p.config.markers file.toText (p.disk.text? file))
    | none, none => if r.ids = [] then none else some (.ofIds i r.ids)

def emptyMessage (r : TraceRequest) : Text :=
  if r.file.isSome then "No traceability markers found in file"
  else if r.task.isSome then "No traceability IDs found in task file"
  else "No valid IDs found"

def linesOf (d : Disk) (path : Text) : Option (List Text) :=
  (d.text? (.ofText path)).map Text.lines

def excerpts (p : Project) (r : TraceRequest) (chains : List TraceChain) : List Excerpt :=
  Excerpt.assemble (linesOf p.disk) r.context (r.task.map Path.toText) chains

def budgeted (p : Project) (r : TraceRequest) (chains : List TraceChain) : BudgetedExcerpts :=
  match r.maxTokens with
  | some limit => .within limit (excerpts p r chains)
  | none => ⟨excerpts p r chains, none⟩

def render (p : Project) (r : TraceRequest) (ids : List Text) (result : TraceResult) : Text :=
  if r.content || r.maxTokens.isSome then
    let shown := budgeted p r result.chains
    let label := Text.join ", " ids
    if r.format = .json then Report.contentJson shown.excerpts label shown.footer
    else Report.contentMarkdown shown.excerpts label shown.footer
  else match r.format with
    | .list => Report.traceList result
    | .json => Report.traceJson result
    | .tree => Report.traceTree p.config.markers result

def answer (p : Project) (i : TraceIndex) (r : TraceRequest) : TraceOutcome :=
  match r.querySet? p i with
  | none => ⟨[], false, ["No IDs, --all, --task, or --file specified"]⟩
  | some ⟨[], []⟩ => ⟨[], false, [r.emptyMessage]⟩
  | some ⟨[], warnings⟩ => ⟨[], false, warnings⟩
  | some ⟨ids, warnings⟩ =>
    let result := TraceResult.resolve i r.options ids
    let messages := warnings ++ result.notFound.map fun id => "ID not found: ".toList ++ id
    if result.chains = [] then ⟨[], false, messages⟩
    else ⟨r.render p ids result, true, messages⟩

end TraceRequest

def Project.trace (p : Project) (r : TraceRequest) : Except Failure TraceOutcome := do
  pure (r.answer p (← p.index))

end Traceability
