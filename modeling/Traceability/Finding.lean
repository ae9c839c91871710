import Traceability.Text.Basic

/-!
# Findings

What a check reports about a file: how grave it is, what sort of thing it is, and where.
-/
namespace Traceability

inductive Severity where
  | error
  | warning
deriving DecidableEq, Repr, Inhabited

def Severity.word : Severity → Text
  | .error => "error"
  | .warning => "warning"

inductive FindingCode where
  | orphanedMarker
  | uncoveredCriterion
  | brokenCrossRef
  | invalidIdFormat
  | markerTrailingText
  | orphanedSpec
  | missingSection
  | wrongLevel
  | missingContent
  | tableColumns
  | prohibited
  | noRule
  | lineLimit
deriving DecidableEq, Repr, Inhabited

def FindingCode.word : FindingCode → Text
  | .orphanedMarker => "orphaned-marker"
  | .uncoveredCriterion => "uncovered-ac"
  | .brokenCrossRef => "broken-cross-ref"
  | .invalidIdFormat => "invalid-id-format"
  | .markerTrailingText => "marker-trailing-text"
  | .orphanedSpec => "orphaned-spec"
  | .missingSection => "schema-missing-section"
  | .wrongLevel => "schema-wrong-level"
  | .missingContent => "schema-missing-content"
  | .tableColumns => "schema-table-columns"
  | .prohibited => "schema-prohibited"
  | .noRule => "schema-no-rule"
  | .lineLimit => "schema-line-limit"

structure Finding where
  severity : Severity
  code : FindingCode
  message : Text
  path : Text
  line : Option Int := none
  id : Option Text := none
  ruleSource : Option Text := none
  rule : Option Text := none
deriving DecidableEq, Repr, Inhabited

namespace Finding

def isError (f : Finding) : Bool := f.severity = .error

def about (severity : Severity) (code : FindingCode) (message path : Text) (line : Nat)
    (id : Text) : Finding :=
  { severity, code, message, path, line := some line, id := some id }

def promote (f : Finding) : Finding := { f with severity := .error }

def errorCount (findings : List Finding) : Nat := findings.countP isError

def warningCount (findings : List Finding) : Nat := findings.length - errorCount findings

def clean (findings : List Finding) : Bool := !findings.any isError

end Finding

end Traceability
