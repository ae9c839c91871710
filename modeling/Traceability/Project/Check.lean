import Traceability.Consistency
import Traceability.Project.Basic
import Traceability.Rule.Conformance
import Traceability.Rule.File

/-!
# Checking a project

The findings of every check: those of the scan, markers against specs, specs against each other and
against their rules. Warnings count as errors unless they are allowed.
-/
namespace Traceability

/-- What a command tells its caller: that all is well, that there is something to look at, or that it
could not do its work. -/
inductive ExitCode where
  | clean
  | findings
  | failure
deriving DecidableEq, Repr

def ExitCode.number : ExitCode → Nat
  | .clean => 0
  | .findings => 1
  | .failure => 2

def ExitCode.ofFindings (findings : List Finding) : ExitCode :=
  if Finding.clean findings then .clean else .findings

namespace Project

def scanToCheck (p : Project) : Except Failure MarkerScan :=
  if p.config.specOnly then .ok {} else p.scan

def rules [CharacterNames] [RuleNotation] (p : Project) : Except Failure (List RuleFile) :=
  if p.config.schemaEnabled then RuleFile.loadAll p.disk p.rulesDirectory else .ok []

def codeFindings [CharacterNames] (p : Project) (specs : Spec.Catalogue) (scan : MarkerScan) :
    Except Failure (List Finding) :=
  if p.config.specOnly then .ok []
  else (Consistency.checkCode p.config.idPattern specs scan.markers).mapError .pattern

def promote (c : Config) (findings : List Finding) : List Finding :=
  if c.allowWarnings then findings else findings.map Finding.promote

def check [CharacterNames] [RuleNotation] (p : Project) : Except Failure (List Finding) := do
  let scan ← p.scanToCheck
  let specs ← p.catalogue
  let rules ← p.rules
  let code ← p.codeFindings specs scan
  let schema ← (Conformance.judge specs.documents rules).mapError .pattern
  pure (promote p.config
    (scan.findings ++ code ++ Consistency.checkSpecs specs scan.markers ++ schema))

end Project

end Traceability
