import Traceability.Excerpt.Budget
import Traceability.Json
import Traceability.Trace.Source

/-!
# Reports of content

Excerpts as a Markdown document, code in fences, or as one JSON object.
-/
namespace Traceability.Report

def languages : List (Text × Text) :=
  [(".py".toList, "python".toList), (".ts".toList, "typescript".toList),
   (".tsx".toList, "typescript".toList), (".js".toList, "javascript".toList),
   (".jsx".toList, "javascript".toList), (".go".toList, "go".toList),
   (".rs".toList, "rust".toList), (".java".toList, "java".toList),
   (".cs".toList, "csharp".toList), (".md".toList, "markdown".toList),
   (".yaml".toList, "yaml".toList), (".yml".toList, "yaml".toList),
   (".json".toList, "json".toList)]

def languageOf (path : Text) : Text :=
  ((languages.find? fun (ending, _) => path.endsWith ending).map Prod.snd).getD []

def kindTitle : ExcerptKind → Text
  | .task => "Task"
  | .requirement => "Requirement"
  | .design => "Design"
  | .implementation => "Implementation"
  | .test => "Test"

def excerptLines (e : Excerpt) : List Text :=
  ["> From: " ++ e.path ++ " (lines " ++ Text.ofInt e.first ++ "-" ++ Text.ofInt e.last ++ ")", []]
    ++ (if e.kind.isCode then ["```" ++ languageOf e.path, e.content, "```"] else [e.content])
    ++ [[]]

/-- The lines of excerpts; a heading stands where the kind is not `last`, that of the one before. -/
def excerptsLines : (last : Option ExcerptKind) → List Excerpt → List Text
  | _, [] => []
  | last, e :: rest =>
    (if last = some e.kind then [] else ["## " ++ kindTitle e.kind, []]) ++ excerptLines e ++
      excerptsLines (some e.kind) rest

def shownFooter (footer : Option Text) : Option Text := footer.filter (· ≠ [])

def contentMarkdown (excerpts : List Excerpt) (label : Text) (footer : Option Text) : Text :=
  Text.join ['\n'] <|
    ["# Context: " ++ label, []] ++ excerptsLines none excerpts ++
      (match shownFooter footer with
        | some f => ["---", f, []]
        | none => [])

def excerptJson (e : Excerpt) : Json :=
  .object
    [("type".toList, .text e.kind.word), ("filePath".toList, .text e.path),
     ("startLine".toList, .number e.first), ("endLine".toList, .number e.last),
     ("content".toList, .text e.content), ("priority".toList, .number e.kind.priority)]

def contentReport (excerpts : List Excerpt) (label : Text) (footer : Option Text) : Json :=
  .objectOf
    [("query".toList, some (.text label)),
     ("sections".toList, some (.array (excerpts.map excerptJson))),
     ("estimatedTokens".toList,
       some (.number (estimateTokens (excerpts.flatMap (·.content))))),
     ("filesIncluded".toList,
       some (.number (QuerySet.distinct (excerpts.map (·.path))).length)),
     ("truncated".toList, (shownFooter footer).map fun _ => .bool true),
     ("truncationMessage".toList, footer.map .text)]

def contentJson (excerpts : List Excerpt) (label : Text) (footer : Option Text) : Text :=
  (contentReport excerpts label footer).render

end Traceability.Report
