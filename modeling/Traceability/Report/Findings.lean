import Traceability.Finding
import Traceability.Json

/-!
# Reports of findings

Findings as lines of text with a summary, or as one JSON object.
-/
namespace Traceability.Report

def findingLine (f : Finding) : Text :=
  let place := match f.line with
    | some line => f.path ++ ":" ++ Text.ofInt line
    | none => f.path
  place ++ "  " ++ f.severity.word ++ "  " ++ f.message ++ " [" ++ f.code.word ++ "]"

def summary (findings : List Finding) : Text :=
  if findings = [] then "Validation passed: no issues found."
  else
    Text.ofNat (Finding.errorCount findings) ++ " error(s), " ++
      Text.ofNat (Finding.warningCount findings) ++ " warning(s)"

def findingJson (f : Finding) : Json :=
  .objectOf
    [("severity".toList, some (.text f.severity.word)),
     ("code".toList, some (.text f.code.word)),
     ("message".toList, some (.text f.message)),
     ("filePath".toList, if f.path = [] then none else some (.text f.path)),
     ("line".toList, f.line.map .number),
     ("id".toList, f.id.map .text),
     ("ruleSource".toList, f.ruleSource.map .text),
     ("rule".toList, f.rule.map .text)]

def findingsJson (findings : List Finding) : Text :=
  let errors := Finding.errorCount findings
  Json.render (.object
    [("valid".toList, .bool (errors = 0)),
     ("errors".toList, .number errors),
     ("warnings".toList, .number (Finding.warningCount findings)),
     ("findings".toList, .array (findings.map findingJson))])

end Traceability.Report
