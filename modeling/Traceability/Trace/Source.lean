import Traceability.Marker.Scan
import Traceability.Trace.Index

/-!
# Where queries come from

A trace starts from identifiers that are given directly, that a task file lists, or that the markers
of a source file name. Identifiers that are not defined are reported, each once.
-/
namespace Traceability

structure QuerySet where
  ids : List Text
  warnings : List Text
deriving DecidableEq, Repr, Inhabited

namespace QuerySet

def distinct (ids : List Text) : List Text :=
  (OrderedMap.ofList (ids.map fun id => (id, ()))).keys

def partition (i : TraceIndex) (warning : Text → Text) (candidates : List Text) : QuerySet :=
  let ids := distinct candidates
  ⟨ids.filter i.defines, (ids.filter fun id => !i.defines id).map warning⟩

def ofIds (i : TraceIndex) (ids : List Text) : QuerySet :=
  partition i (fun id => "ID '" ++ id ++ "' not found in any spec or code") ids

def orSay (message : Text) (s : QuerySet) : QuerySet :=
  if s.ids = [] && s.warnings = [] then ⟨[], [message]⟩ else s

def isTaskLink (line : Text) : Bool :=
  let body := Text.trimStart line
  body.startsWith "IMPLEMENTS:" || body.startsWith "TESTS:"

def itemId? (line : Text) : Option Text := do
  let (id, _) ← Identifier.reference (← Text.dropStem? "- " line)
  pure id

def taskIdsFrom : (inside : Bool) → List Text → List Text
  | _, [] => []
  | inside, line :: rest =>
    let linked := if isTaskLink line then Identifier.embedded line else []
    linked ++
      if line.startsWith "## Requirements Traceability" then taskIdsFrom true rest
      else if inside && line.startsWith "## " then taskIdsFrom false rest
      else if inside then (itemId? line).toList ++ taskIdsFrom true rest
      else taskIdsFrom false rest

def taskIds (text : Text) : List Text := taskIdsFrom false (Text.lines text)

/-- The identifiers of a task file; `text` is missing if the file cannot be read. -/
def ofTask (i : TraceIndex) (path : Text) (text : Option Text) : QuerySet :=
  match text with
  | none => ⟨[], ["Task file not found: " ++ path]⟩
  | some text =>
    (partition i (fun id => "ID '" ++ id ++ "' from task file not found in specs")
      (taskIds text)).orSay ("No traceability IDs found in task file: " ++ path)

def ofSource (i : TraceIndex) (tokens : List Text) (path : Text) (text : Option Text) : QuerySet :=
  match text with
  | none => ⟨[], ["Source file not found: " ++ path]⟩
  | some text =>
    (partition i (fun id => "Marker ID '" ++ id ++ "' not found in specs")
      (Marker.idsIn tokens text)).orSay ("No traceability markers found in file: " ++ path)

end QuerySet

end Traceability
