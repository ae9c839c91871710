import Traceability.Command.Basic
import Traceability.Command.Readers
import Traceability.Config.File
import Traceability.Project.Check
import Traceability.Report.Findings

/-!
# Running commands

A command prints a report and says by its exit code what came of it. What could not be done, and what
else is to be said, goes to the error output.
-/
namespace Traceability

structure CommandResult where
  exitCode : ExitCode
  output : Text := []
  errors : Text := []
deriving DecidableEq, Repr

namespace Command

def printed (lines : List Text) : Text := lines.flatMap fun line => line ++ ['\n']

def failed (name : Text) (f : Failure) : CommandResult :=
  { exitCode := .failure
    errors := printed ["spectrace " ++ name ++ " failed: " ++ f.message] }

def reportLines (findings : List Finding) : List Text :=
  findings.map Report.findingLine ++ (if findings = [] then [] else [[]]) ++
    [Report.summary findings]

def report (format : ReportFormat) (findings : List Finding) : Text :=
  match format with
  | .json => printed [Report.findingsJson findings]
  | .text => printed (reportLines findings)

def runCheck (d : Disk) (root : Path) (file : Option Path) (o : ConfigOverrides) :
    Except Failure CommandResult := do
  let config ← Config.load d (some root) file o
  let findings ← Project.check ⟨d, root, config⟩
  pure { exitCode := .ofFindings findings, output := report config.format findings }

def runTrace (d : Disk) (root : Path) (file : Option Path) (r : TraceRequest) :
    Except Failure CommandResult := do
  let config ← Config.load d (some root) file {}
  let o ← Project.trace ⟨d, root, config⟩ r
  pure
    { exitCode := if o.isResolved then .clean else .findings
      output := if o.text = [] then [] else printed [o.text]
      errors := printed o.messages }

def run (d : Disk) (c : Command) : CommandResult :=
  let orFailed (name : Text) : Except Failure CommandResult → CommandResult
    | .ok r => r
    | .error f => failed name f
  match c with
  | .check root file o => orFailed "check" (runCheck d root file o)
  | .trace root file r => orFailed "trace" (runTrace d root file r)

end Command

end Traceability
